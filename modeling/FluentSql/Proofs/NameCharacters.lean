import FluentSql.Proofs.Outcome
import FluentSql.TableReference

/-!
The characters of names. A checked name and both parts of a table reference are made of letters,
digits and a few other characters, none of them blank; a name that passed its check passes it again
as it is, in every role.
-/

namespace FluentSql

namespace Identifier

/-- The characters of names, of the aliases of tables too. -/
def isNameChar (c : Char) : Bool := c == '.' || c == '*' || TableReference.isPartChar c

/-- The text passes as a name as it is, whatever it names. -/
def Accepted (name : String) : Prop := ∀ role, check role (.text name) = .ok name

theorem splitDots_ne_nil (cs : List Char) : splitDots cs ≠ [] := by
  cases cs with
  | nil => exact List.cons_ne_nil _ _
  | cons c cs =>
      simp only [splitDots]
      split
      · exact List.cons_ne_nil _ _
      · split <;> exact List.cons_ne_nil _ _

/-- A character that is no dot goes before the first piece of the text after it. -/
theorem splitDots_cons {c : Char} (h : c ≠ '.') (cs : List Char) :
    ∃ first rest, splitDots cs = first :: rest ∧ splitDots (c :: cs) = (c :: first) :: rest := by
  obtain ⟨first, rest, hsplit⟩ := List.exists_cons_of_ne_nil (splitDots_ne_nil cs)
  exact ⟨first, rest, hsplit, by simp only [splitDots, h, if_false, hsplit]⟩

theorem splitDots_dot (cs : List Char) : splitDots ('.' :: cs) = [] :: splitDots cs := by
  simp only [splitDots, if_true]

theorem head_splitDots (cs : List Char) : ∀ piece ∈ (splitDots cs).head?, piece <+: cs := by
  induction cs with
  | nil => simp [splitDots]
  | cons c cs ih =>
      intro piece hpiece
      by_cases hdot : c = '.'
      · rw [hdot, splitDots_dot] at hpiece
        cases hpiece
        exact List.nil_prefix
      · obtain ⟨first, rest, hsplit, hcons⟩ := splitDots_cons hdot cs
        rw [hcons] at hpiece
        rw [hsplit] at ih
        cases hpiece
        exact List.cons_prefix_cons.mpr ⟨rfl, ih first rfl⟩

/-- The pieces between dots stand in the text. -/
theorem splitDots_infix {cs piece : List Char} (h : piece ∈ splitDots cs) : piece <:+: cs := by
  induction cs generalizing piece with
  | nil =>
      have empty : piece = [] := List.mem_singleton.mp h
      exact empty ▸ List.nil_infix
  | cons c cs ih =>
      by_cases hdot : c = '.'
      · rw [hdot, splitDots_dot] at h
        obtain rfl | h := List.mem_cons.mp h
        · exact List.nil_infix
        · exact (ih h).trans (List.infix_cons List.infix_rfl)
      · obtain ⟨first, rest, hsplit, hcons⟩ := splitDots_cons hdot cs
        have head := head_splitDots cs
        rw [hcons] at h
        rw [hsplit] at ih head
        obtain rfl | h := List.mem_cons.mp h
        · exact (List.cons_prefix_cons.mpr ⟨rfl, head first rfl⟩).isInfix
        · exact (ih (List.mem_cons_of_mem first h)).trans (List.infix_cons List.infix_rfl)

/-- Between dots stands all of a text but the dots. -/
theorem mem_splitDots {cs : List Char} {c : Char} (h : c ∈ cs) :
    c = '.' ∨ ∃ piece ∈ splitDots cs, c ∈ piece := by
  induction cs with
  | nil => cases h
  | cons d cs ih =>
      by_cases hdot : d = '.'
      · rw [hdot, splitDots_dot]
        obtain rfl | h := List.mem_cons.mp h
        · exact .inl hdot
        · exact (ih h).imp_right fun ⟨piece, hpiece, hc⟩ =>
            ⟨piece, List.mem_cons_of_mem _ hpiece, hc⟩
      · obtain ⟨first, rest, hsplit, hcons⟩ := splitDots_cons hdot cs
        rw [hcons]
        rw [hsplit] at ih
        obtain rfl | h := List.mem_cons.mp h
        · exact .inr ⟨_, List.mem_cons_self .., List.mem_cons_self ..⟩
        · refine (ih h).imp_right fun ⟨piece, hpiece, hc⟩ => ?_
          obtain rfl | hpiece := List.mem_cons.mp hpiece
          · exact ⟨_, List.mem_cons_self .., List.mem_cons_of_mem d hc⟩
          · exact ⟨piece, List.mem_cons_of_mem _ hpiece, hc⟩

end Identifier

theorem Identifier.isPartChar_of_isPartStart {c : Char} (h : isPartStart c = true) :
    isPartChar c = true := by
  simp only [isPartStart, isPartChar, Char.isAlphanum, Bool.or_eq_true] at h ⊢
  exact .inl (h.imp_left Or.inl)

namespace TableReference

theorem isPart_chars {cs : List Char} (h : isPart cs = true) : ∀ c ∈ cs, isPartChar c = true := by
  cases cs with
  | nil => exact List.forall_mem_nil _
  | cons first rest =>
      obtain ⟨start, others⟩ := Bool.and_eq_true_iff.mp h
      refine List.forall_mem_cons.mpr ⟨?_, List.all_eq_true.mp others⟩
      simp only [isPartStart, isPartChar, Bool.or_eq_true] at start ⊢
      exact start.imp_left Identifier.isPartChar_of_isPartStart

theorem isPart_of_isPart {cs : List Char} (h : Identifier.isPart cs = true) :
    isPart cs = true := by
  cases cs with
  | nil => cases h
  | cons c rest =>
      obtain ⟨hfirst, hrest⟩ := Bool.and_eq_true_iff.mp h
      refine Bool.and_eq_true_iff.mpr ⟨Bool.or_eq_true_iff.mpr (.inl hfirst), ?_⟩
      refine List.all_eq_true.mpr fun d hd => Bool.or_eq_true_iff.mpr (.inl ?_)
      exact List.all_eq_true.mp hrest d hd

end TableReference

namespace Identifier

theorem isNameChar_of_isPart {cs : List Char} (h : TableReference.isPart cs = true) :
    ∀ c ∈ cs, isNameChar c = true := by
  intro c hc
  rw [isNameChar, TableReference.isPart_chars h c hc, Bool.or_true]

theorem isDotted_chars {cs : List Char} (h : isDotted cs = true) :
    ∀ c ∈ cs, isNameChar c = true := by
  intro c hc
  have part {piece : List Char} (hpart : isPart piece = true) (hmem : c ∈ piece) :
      isNameChar c = true :=
    isNameChar_of_isPart (TableReference.isPart_of_isPart hpart) c hmem
  obtain rfl | ⟨piece, hpiece, hmem⟩ := mem_splitDots hc
  · rfl
  · simp only [isDotted] at h
    cases hsplit : splitDots cs with
    | nil => rw [hsplit] at h; cases h
    | cons first rest =>
        rw [hsplit] at h hpiece
        obtain ⟨hfirst, hrest⟩ := Bool.and_eq_true_iff.mp h
        obtain rfl | hpiece := List.mem_cons.mp hpiece
        · exact part hfirst hmem
        · obtain hpart | star := Bool.or_eq_true_iff.mp (List.all_eq_true.mp hrest piece hpiece)
          · exact part hpart hmem
          · rw [beq_iff_eq.mp star, List.mem_singleton] at hmem
            rw [hmem]
            rfl

/-- The code points of names: letters, digits and eight more. -/
theorem isNameChar_toNat {c : Char} (h : isNameChar c = true) :
    (48 ≤ c.toNat ∧ c.toNat ≤ 57) ∨ (65 ≤ c.toNat ∧ c.toNat ≤ 90) ∨
      (97 ≤ c.toNat ∧ c.toNat ≤ 122) ∨
      c.toNat ∈ [36, 42, 46, 95, 0x130, 0x131, 0x17f, 0x212a] := by
  -- the classes are spelled out, so that only comparisons with code points are left
  have alphanum : c.isAlphanum = (decide (c.val ≥ 'A'.val ∧ c.val ≤ 'Z'.val) ||
      (decide (c.val ≥ 'a'.val) && decide (c.val ≤ 'z'.val)) ||
      (decide (c.val ≥ '0'.val) && decide (c.val ≤ '9'.val))) := rfl
  simp only [isNameChar, TableReference.isPartChar, isPartChar, TableReference.isFoldedLetter,
    alphanum, Bool.or_eq_true, Bool.and_eq_true, decide_eq_true_eq, beq_iff_eq, ge_iff_le,
    UInt32.le_iff_toNat_le] at h
  change (c = '.' ∨ c = '*') ∨ (((((65 ≤ c.toNat ∧ c.toNat ≤ 90) ∨ (97 ≤ c.toNat ∧ c.toNat ≤ 122)) ∨
    (48 ≤ c.toNat ∧ c.toNat ≤ 57)) ∨ c = '_') ∨ c = '$') ∨
    ((c = '\u0130' ∨ c = '\u0131') ∨ c = '\u017f') ∨ c = '\u212a' at h
  rcases h with (rfl | rfl) | ((((upper | lower) | digit) | rfl) | rfl) |
    (((rfl | rfl) | rfl) | rfl)
  · decide
  · decide
  · exact .inr (.inl upper)
  · exact .inr (.inr (.inl lower))
  · exact .inl digit
  all_goals decide

theorem isNameChar_not_blank {c : Char} (h : isNameChar c = true) : Text.isBlank c = false := by
  have point := isNameChar_toNat h
  simp only [List.mem_cons, List.not_mem_nil, or_false] at point
  simp only [Text.isBlank, Bool.or_eq_false_iff, Bool.and_eq_false_iff, decide_eq_false_iff_not,
    beq_eq_false_iff_ne]
  omega

end Identifier

theorem Text.trim_of_not_blank {s : String} (h : ∀ c ∈ s.toList, isBlank c = false) :
    trim s = s := by
  have kept {cs : List Char} (clean : ∀ c ∈ cs, isBlank c = false) : cs.dropWhile isBlank = cs := by
    cases cs with
    | nil => rfl
    | cons c cs => rw [List.dropWhile_cons, clean c (List.mem_cons_self ..)]; rfl
  have back : ∀ c ∈ s.toList.reverse, isBlank c = false := fun c hc => h c (List.mem_reverse.mp hc)
  rw [trim, trimChars, kept h, kept back, List.reverse_reverse, String.ofList_toList]

namespace Identifier

variable {role name : String} {v : Value}

/-- What a name is that a check lets through. -/
theorem check_ok : check role v = .ok name ↔ ∃ s, v = .text s ∧ name = Text.trim s ∧
    name.isEmpty = false ∧ isDotted name.toList = true ∧
      ∀ piece ∈ splitDots name.toList, piece.length ≤ maxLength := by
  constructor
  · intro h
    cases v with
    | text s =>
        simp only [check] at h
        split at h
        · cases h
        · next given =>
            split at h
            · cases h
            · next dotted =>
                split at h
                · cases h
                · next short =>
                    cases h
                    exact ⟨s, rfl, rfl, by simpa using given, by simpa using dotted,
                      by simpa using short⟩
    | _ => cases h
  · rintro ⟨s, rfl, rfl, given, dotted, short⟩
    have short' : ¬ ((splitDots (Text.trim s).toList).any fun piece =>
        maxLength < piece.length) = true := by simpa using short
    simp only [check, given, dotted, short', Bool.not_true, Bool.false_eq_true, if_false]

theorem check_chars (h : check role v = .ok name) : ∀ c ∈ name.toList, isNameChar c = true := by
  obtain ⟨s, -, -, -, dotted, -⟩ := check_ok.mp h
  exact isDotted_chars dotted

/-- Checks do not depend on the role, and give names that pass them. -/
theorem check_accepted (h : check role v = .ok name) : Accepted name := by
  intro other
  have chars := check_chars h
  obtain ⟨s, -, -, given, dotted, short⟩ := check_ok.mp h
  have trimmed : Text.trim name = name :=
    Text.trim_of_not_blank fun c hc => isNameChar_not_blank (chars c hc)
  exact check_ok.mpr ⟨name, rfl, trimmed.symm, given, dotted, short⟩

theorem Accepted.chars (h : Accepted name) : ∀ c ∈ name.toList, isNameChar c = true :=
  check_chars (h "column")

end Identifier

namespace TableReference

theorem ofWords_parts {words : List (List Char)} {name : List Char} {other : Option (List Char)}
    (h : ofWords? words = some (name, other)) :
    isDotted name = true ∧ ∀ short ∈ other, isPart short = true := by
  simp only [ofWords?] at h
  split at h
  · split at h
    · next checked =>
        cases h
        exact ⟨checked, nofun⟩
    · cases h
  · split at h
    · next checked =>
        cases h
        obtain ⟨dotted, part⟩ := Bool.and_eq_true_iff.mp checked
        exact ⟨dotted, fun short same => by cases same; exact part⟩
    · cases h
  · split at h
    · next checked =>
        cases h
        obtain ⟨front, part⟩ := Bool.and_eq_true_iff.mp checked
        exact ⟨(Bool.and_eq_true_iff.mp front).1, fun short same => by cases same; exact part⟩
    · cases h
  · cases h

/-- What a reference is that can be split. -/
theorem split_ok {v : Value} {t : TableReference} :
    split v = .ok t ↔ ∃ s name other, v = .text s ∧ (Text.trim s).isEmpty = false ∧
      ofWords? (Text.wordChars s.toList) = some (name, other) ∧
      (other.map String.ofList).any isReserved = false ∧
      Identifier.check "table" (.text (String.ofList name)) = .ok t.name ∧
      t.shortName = other.map String.ofList := by
  constructor
  · intro h
    cases v with
    | text s =>
        simp only [split] at h
        split at h
        · cases h
        · next given =>
            split at h
            · next name other words =>
                split at h
                · cases h
                · next free =>
                    obtain ⟨checked, hchecked, h⟩ := ok_bind_iff.mp h
                    cases h
                    exact ⟨s, name, other, rfl, by simpa using given, words, by simpa using free,
                      hchecked, rfl⟩
            · cases h
    | _ => cases h
  · rintro ⟨s, name, other, rfl, given, words, free, checked, short⟩
    rw [← short] at free
    simp only [split, given, words, ← short, free, checked, Bool.false_eq_true, if_false]
    rfl

/-- The name of a table is checked, and its alias is one part of a name. -/
theorem split_parts {v : Value} {t : TableReference} (h : split v = .ok t) :
    Identifier.Accepted t.name ∧ ∀ short ∈ t.shortName, isPart short.toList = true := by
  obtain ⟨s, name, other, -, -, words, -, checked, short⟩ := split_ok.mp h
  refine ⟨Identifier.check_accepted checked, fun shown hshown => ?_⟩
  rw [short] at hshown
  obtain ⟨cs, given, rfl⟩ := Option.map_eq_some_iff.mp hshown
  rw [String.toList_ofList]
  exact (ofWords_parts words).2 cs given

theorem split_chars {v : Value} {t : TableReference} (h : split v = .ok t) :
    (∀ c ∈ t.name.toList, Identifier.isNameChar c = true) ∧
      ∀ short ∈ t.shortName, ∀ c ∈ short.toList, Identifier.isNameChar c = true := by
  obtain ⟨name, shortName⟩ := split_parts h
  exact ⟨name.chars, fun short hshort => Identifier.isNameChar_of_isPart (shortName short hshort)⟩

end TableReference
end FluentSql
