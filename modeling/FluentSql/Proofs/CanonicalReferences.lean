import Mathlib.Data.List.TakeWhile
import FluentSql.Builder.Call
import FluentSql.Proofs.CheckedFields
import FluentSql.Proofs.NameCharacters
import FluentSql.Proofs.Outcome

/-!
References to tables read back. A reference is spelled as one word, as two words, or as three of
which the middle one is `AS` in any case, with any blanks between and around them; the texts that
are read as a reference are its spellings. The canonical form is one of them, so a reference that
was stored in its canonical form can always be taken apart again. A join stores its reference in
that form.
-/

namespace FluentSql

namespace Text

theorem mem_dropWhile {p : Char → Bool} {c : Char} {cs : List Char} (h : c ∈ cs)
    (kept : p c = false) : c ∈ cs.dropWhile p := by
  rw [← List.takeWhile_append_dropWhile (p := p) (l := cs)] at h
  obtain dropped | rest := List.mem_append.mp h
  · have holds := List.mem_takeWhile_imp dropped
    rw [kept] at holds
    cases holds
  · exact rest

/-- A text is not trimmed to nothing when it shows something. -/
theorem trim_shown {s : String} {c : Char} (h : c ∈ s.toList) (shown : isBlank c = false) :
    (trim s).isEmpty = false := by
  have front : c ∈ s.toList.dropWhile isBlank := mem_dropWhile h shown
  have back : c ∈ trimChars s.toList :=
    List.mem_reverse.mpr (mem_dropWhile (List.mem_reverse.mpr front) shown)
  rw [Bool.eq_false_iff]
  intro empty
  have nothing : trim s = "" := String.isEmpty_iff.mp empty
  have chars : trimChars s.toList = [] := by
    rw [← String.toList_ofList (l := trimChars s.toList)]
    exact congrArg String.toList nothing
  rw [chars] at back
  cases back

/-- A row of blanks, which may be empty. -/
def IsGap (cs : List Char) : Prop := ∀ c ∈ cs, isBlank c = true

theorem wordChars_blank {b : Char} (blank : isBlank b = true) (cs : List Char) :
    wordChars (b :: cs) = wordChars cs := by
  rw [wordChars, if_pos blank]

theorem wordChars_gap {gap : List Char} (blank : IsGap gap) (cs : List Char) :
    wordChars (gap ++ cs) = wordChars cs := by
  induction gap with
  | nil => rfl
  | cons b gap ih =>
      obtain ⟨first, others⟩ := List.forall_mem_cons.mp blank
      rw [List.cons_append, wordChars_blank first]
      exact ih others

theorem wordChars_eq_nil {cs : List Char} (h : wordChars cs = []) : IsGap cs := by
  induction cs with
  | nil => exact List.forall_mem_nil _
  | cons c cs ih =>
      rw [wordChars] at h
      split at h
      · next blank => exact List.forall_mem_cons.mpr ⟨blank, ih h⟩
      · split at h
        · cases h
        · split at h <;> cases h

/-- A text in which words are found is a gap, the first word, and a rest that holds the other words
and begins with a blank unless it is empty. -/
theorem wordChars_eq_cons {cs word : List Char} {words : List (List Char)}
    (h : wordChars cs = word :: words) :
    ∃ gap rest, IsGap gap ∧ cs = gap ++ (word ++ rest) ∧ rest.head?.all isBlank = true ∧
      wordChars rest = words := by
  induction cs generalizing word with
  | nil => cases h
  | cons c cs ih =>
      rw [wordChars] at h
      split at h
      · next blank =>
          obtain ⟨gap, rest, hgap, rfl, ends, later⟩ := ih h
          exact ⟨c :: gap, rest, List.forall_mem_cons.mpr ⟨blank, hgap⟩, rfl, ends, later⟩
      · split at h
        · next ends =>
            cases h
            exact ⟨[], cs, List.forall_mem_nil _, rfl, ends, rfl⟩
        · next goesOn =>
            cases later : wordChars cs with
            | nil =>
                have blank := wordChars_eq_nil later
                cases cs with
                | nil => exact absurd rfl goesOn
                | cons d cs => exact absurd (blank d List.mem_cons_self) goesOn
            | cons first others =>
                rw [later] at h
                cases h
                obtain ⟨gap, rest, hgap, rfl, ends, found⟩ := ih later
                cases gap with
                | nil => exact ⟨[], rest, List.forall_mem_nil _, rfl, ends, found⟩
                | cons b gap => exact absurd (hgap b List.mem_cons_self) goesOn

variable {word : List Char} (given : word ≠ []) (clean : ∀ c ∈ word, isBlank c = false)

include given clean

/-- A word ends where the text does or at the first blank. -/
theorem wordChars_append {rest : List Char} (ends : rest.head?.all isBlank = true) :
    wordChars (word ++ rest) = word :: wordChars rest := by
  induction word with
  | nil => exact absurd rfl given
  | cons c word ih =>
      obtain ⟨first, others⟩ := List.forall_mem_cons.mp clean
      rw [List.cons_append]
      cases word with
      | nil =>
          rw [wordChars, if_neg (Bool.eq_false_iff.mp first), List.nil_append, if_pos ends]
      | cons d word =>
          have next : ((d :: word ++ rest).head?.all isBlank) = false :=
            others d List.mem_cons_self
          rw [wordChars, if_neg (Bool.eq_false_iff.mp first), next,
            ih (List.cons_ne_nil d word) others]
          rfl

theorem wordChars_last {gap : List Char} (blank : IsGap gap) :
    wordChars (word ++ gap) = [word] := by
  have ends : gap.head?.all isBlank = true := by
    cases gap with
    | nil => rfl
    | cons b gap => exact blank b List.mem_cons_self
  have rest : wordChars gap = [] := by
    rw [← List.append_nil gap, wordChars_gap blank]
    rfl
  rw [wordChars_append given clean ends, rest]

theorem wordChars_before {gap : List Char} (some : gap ≠ []) (blank : IsGap gap) (cs : List Char) :
    wordChars (word ++ (gap ++ cs)) = word :: wordChars cs := by
  have ends : (gap ++ cs).head?.all isBlank = true := by
    obtain ⟨b, gap, rfl⟩ := List.exists_cons_of_ne_nil some
    exact blank b List.mem_cons_self
  rw [wordChars_append given clean ends, wordChars_gap blank]

end Text

namespace TableReference

open Text (IsGap isBlank wordChars)

variable {s : String} {v : Value} {t : TableReference} {cs : List Char}

theorem isDotted_chars (h : isDotted cs = true) : ∀ c ∈ cs, Identifier.isNameChar c = true := by
  intro c hc
  obtain rfl | ⟨piece, hpiece, inside⟩ := Identifier.mem_splitDots hc
  · rfl
  · exact Identifier.isNameChar_of_isPart (List.all_eq_true.mp h piece hpiece) c inside

theorem isDotted_ne_nil (h : isDotted cs = true) : cs ≠ [] := by
  rintro rfl
  cases h

theorem isDotted_clean (h : isDotted cs = true) : ∀ c ∈ cs, isBlank c = false :=
  fun c hc => Identifier.isNameChar_not_blank (isDotted_chars h c hc)

theorem isPart_ne_nil (h : isPart cs = true) : cs ≠ [] := by
  rintro rfl
  cases h

theorem isPart_clean (h : isPart cs = true) : ∀ c ∈ cs, isBlank c = false :=
  fun c hc => Identifier.isNameChar_not_blank (Identifier.isNameChar_of_isPart h c hc)

theorem isAsWord_clean (h : isAsWord cs = true) : cs ≠ [] ∧ ∀ c ∈ cs, isBlank c = false := by
  rw [isAsWord.eq_def] at h
  split at h
  · next a s =>
      simp only [Bool.and_eq_true, Bool.or_eq_true, beq_iff_eq] at h
      refine ⟨List.cons_ne_nil _ _, List.forall_mem_cons.mpr ⟨?_, List.forall_mem_singleton.mpr ?_⟩⟩
      · obtain rfl | rfl := h.1 <;> decide
      · obtain (rfl | rfl) | rfl := h.2 <;> decide
  · cases h

/-- Checked or not, the name of a reference is the word that stood in its place. -/
theorem name_of_word {name : List Char} {checked : String} (dotted : isDotted name = true)
    (h : Identifier.check "table" (.text (String.ofList name)) = .ok checked) :
    checked = String.ofList name := by
  obtain ⟨s, given, trimmed, -⟩ := Identifier.check_ok.mp h
  cases given
  rw [trimmed]
  apply Text.trim_of_not_blank
  intro c hc
  rw [String.toList_ofList] at hc
  exact isDotted_clean dotted c hc

/-- A reference that is made of a name that passes its check and of an alias in its place. -/
structure IsSound (t : TableReference) : Prop where
  dotted : isDotted t.name.toList = true
  checked : Identifier.check "table" (.text t.name) = .ok t.name
  part : ∀ other ∈ t.shortName, isPart other.toList = true
  free : t.shortName.any isReserved = false

/-- The ways to write a reference: its name alone, or a gap and its alias after it, or `AS` in any
case between two gaps and then its alias; and there may be blanks around it all. -/
inductive SpelledBy (t : TableReference) : List Char → Prop
  | plain {before after : List Char} (none : t.shortName = none) (front : IsGap before)
      (back : IsGap after) : SpelledBy t (before ++ (t.name.toList ++ after))
  | aliased {other : String} {before gap after : List Char} (some : t.shortName = some other)
      (front : IsGap before) (given : gap ≠ []) (between : IsGap gap) (back : IsGap after) :
      SpelledBy t (before ++ (t.name.toList ++ (gap ++ (other.toList ++ after))))
  | worded {other : String} {before gap word gap' after : List Char}
      (some : t.shortName = some other) (front : IsGap before) (given : gap ≠ [])
      (between : IsGap gap) (asWord : isAsWord word = true) (given' : gap' ≠ [])
      (between' : IsGap gap') (back : IsGap after) :
      SpelledBy t
        (before ++ (t.name.toList ++ (gap ++ (word ++ (gap' ++ (other.toList ++ after))))))

theorem SpelledBy.mem {c : Char} (h : t.SpelledBy cs) (hc : c ∈ t.name.toList) : c ∈ cs := by
  cases h <;> exact List.mem_append_right _ (List.mem_append_left _ hc)

theorem words_of_spelled (sound : t.IsSound) (h : t.SpelledBy cs) :
    ofWords? (wordChars cs) = some (t.name.toList, t.shortName.map String.toList) := by
  have given := isDotted_ne_nil sound.dotted
  have clean := isDotted_clean sound.dotted
  cases h with
  | plain none front back =>
      rw [Text.wordChars_gap front, Text.wordChars_last given clean back, none]
      exact if_pos sound.dotted
  | aliased some front gapGiven between back =>
      have part := sound.part _ some
      rw [Text.wordChars_gap front, Text.wordChars_before given clean gapGiven between,
        Text.wordChars_last (isPart_ne_nil part) (isPart_clean part) back, some]
      have two := Bool.and_eq_true_iff.mpr ⟨sound.dotted, part⟩
      exact if_pos two
  | worded some front gapGiven between asWord gapGiven' between' back =>
      have part := sound.part _ some
      obtain ⟨wordGiven, wordClean⟩ := isAsWord_clean asWord
      rw [Text.wordChars_gap front, Text.wordChars_before given clean gapGiven between,
        Text.wordChars_before wordGiven wordClean gapGiven' between',
        Text.wordChars_last (isPart_ne_nil part) (isPart_clean part) back, some]
      have three := Bool.and_eq_true_iff.mpr
        ⟨Bool.and_eq_true_iff.mpr ⟨sound.dotted, asWord⟩, part⟩
      exact if_pos three

/-- A further word stands behind a gap. -/
theorem wordChars_next {rest word : List Char} {words : List (List Char)}
    (ends : rest.head?.all isBlank = true) (h : wordChars rest = word :: words) :
    ∃ gap rest', gap ≠ [] ∧ IsGap gap ∧ rest = gap ++ (word ++ rest') ∧
      rest'.head?.all isBlank = true ∧ wordChars rest' = words := by
  cases rest with
  | nil => cases h
  | cons b rest =>
      have blank : isBlank b = true := ends
      rw [Text.wordChars_blank blank] at h
      obtain ⟨gap, rest', hgap, rfl, ends', later⟩ := Text.wordChars_eq_cons h
      exact ⟨b :: gap, rest', List.cons_ne_nil _ _, List.forall_mem_cons.mpr ⟨blank, hgap⟩, rfl,
        ends', later⟩

theorem spelled_of_words
    (h : ofWords? (wordChars cs) = some (t.name.toList, t.shortName.map String.toList)) :
    t.SpelledBy cs := by
  have aliasOf {word : List Char} (same : some word = t.shortName.map String.toList) :
      ∃ other, t.shortName = some other ∧ word = other.toList := by
    obtain ⟨other, held, rfl⟩ := Option.map_eq_some_iff.mp same.symm
    exact ⟨other, held, rfl⟩
  rw [ofWords?.eq_def] at h
  split at h
  · next name words =>
      split at h
      · obtain ⟨rfl, none⟩ := Prod.mk.inj (Option.some.inj h)
        obtain ⟨before, after, front, rfl, -, last⟩ := Text.wordChars_eq_cons words
        exact .plain (Option.map_eq_none_iff.mp none.symm) front (Text.wordChars_eq_nil last)
      · cases h
  · next name word words =>
      split at h
      · obtain ⟨rfl, some⟩ := Prod.mk.inj (Option.some.inj h)
        obtain ⟨other, held, rfl⟩ := aliasOf some
        obtain ⟨before, rest, front, rfl, ends, more⟩ := Text.wordChars_eq_cons words
        obtain ⟨gap, after, given, between, rfl, -, last⟩ := wordChars_next ends more
        exact .aliased held front given between (Text.wordChars_eq_nil last)
      · cases h
  · next name asWord word words =>
      split at h
      · next parts =>
          obtain ⟨rfl, some⟩ := Prod.mk.inj (Option.some.inj h)
          obtain ⟨other, held, rfl⟩ := aliasOf some
          obtain ⟨before, rest, front, rfl, ends, more⟩ := Text.wordChars_eq_cons words
          obtain ⟨gap, rest', given, between, rfl, ends', more'⟩ := wordChars_next ends more
          obtain ⟨gap', after, given', between', rfl, -, last⟩ := wordChars_next ends' more'
          have isAs := (Bool.and_eq_true_iff.mp (Bool.and_eq_true_iff.mp parts).1).2
          exact .worded held front given between isAs given' between' (Text.wordChars_eq_nil last)
      · cases h
  · cases h

/-- What is read as a reference is a spelling of it, and nothing else is. -/
theorem split_text_iff : split (.text s) = .ok t ↔ t.IsSound ∧ t.SpelledBy s.toList := by
  constructor
  · intro h
    obtain ⟨_, name, other, given, -, words, free, checked, short⟩ := split_ok.mp h
    cases given
    obtain ⟨dotted, parts⟩ := ofWords_parts words
    have named := name_of_word dotted checked
    have chars : t.name.toList = name := by rw [named, String.toList_ofList]
    have others : t.shortName.map String.toList = other := by
      rw [short, Option.map_map]
      cases other <;> simp
    refine ⟨⟨chars ▸ dotted, named ▸ checked, fun shown hshown => ?_, short ▸ free⟩, ?_⟩
    · exact parts _ (others ▸ Option.mem_map_of_mem String.toList hshown)
    · exact spelled_of_words (by rw [words, chars, others])
  · rintro ⟨sound, spelled⟩
    have words := words_of_spelled sound spelled
    have short : t.shortName = (t.shortName.map String.toList).map String.ofList := by
      cases t.shortName <;> simp
    refine split_ok.mpr ⟨s, _, _, rfl, ?_, words, short ▸ sound.free, ?_, short⟩
    · obtain ⟨first, rest, hname⟩ := List.exists_cons_of_ne_nil (isDotted_ne_nil sound.dotted)
      have inName : first ∈ t.name.toList := hname ▸ List.mem_cons_self
      exact Text.trim_shown (spelled.mem inName) (isDotted_clean sound.dotted first inName)
    · rw [String.ofList_toList]
      exact sound.checked

theorem spelledBy_toText (t : TableReference) : t.SpelledBy t.toText.toList := by
  have none : IsGap [] := List.forall_mem_nil _
  have space : IsGap [' '] := List.forall_mem_singleton.mpr (by decide)
  cases short : t.shortName with
  | none =>
      have chars : t.toText.toList = [] ++ (t.name.toList ++ []) := by simp [toText, short]
      exact chars ▸ .plain short none none
  | some other =>
      have chars : t.toText.toList = [] ++ (t.name.toList ++
          ([' '] ++ (['A', 'S'] ++ ([' '] ++ (other.toList ++ []))))) := by
        simp [toText, short]
      exact chars ▸ .worded short none (List.cons_ne_nil _ _) space rfl (List.cons_ne_nil _ _) space
        none

/-- The canonical form of a reference reads back as the reference. -/
theorem split_toText (h : split v = .ok t) : split (.text t.toText) = .ok t := by
  obtain ⟨s, -, -, rfl, -⟩ := split_ok.mp h
  exact split_text_iff.mpr ⟨(split_text_iff.mp h).1, spelledBy_toText t⟩

theorem toText_ne_empty (h : split v = .ok t) : t.toText ≠ "" := by
  obtain ⟨s, -, -, given, shown, -⟩ := split_ok.mp (split_toText h)
  cases given
  intro empty
  rw [empty] at shown
  cases shown

/-- A reference in its canonical form. -/
def IsCanonical (reference : String) : Prop :=
  reference ≠ "" ∧ ∃ t, split (.text reference) = .ok t

theorem check_isCanonical {reference : String} (h : check v = .ok reference) :
    IsCanonical reference := by
  obtain ⟨t, read, h⟩ := ok_bind_iff.mp h
  cases h
  exact ⟨toText_ne_empty read, t, split_toText read⟩

example : (check (.text " app.users\tu ")).toOption = some "app.users AS u" := by
  decide +kernel

end TableReference

namespace Join

theorem ofParts_table {kind : JoinKind} {reference : String} {text left right : Option String}
    {operator : Option Operator} {j : Join}
    (h : ofParts kind reference text left operator right = .ok j) : j.table = reference := by
  simp only [ofParts] at h
  split at h
  · cases h
    rfl
  · cases h

theorem ofFields_table {data : List (String × Value)} {j : Join} (h : ofFields data = .ok j) :
    ∃ v, Fields.get? "table" data = some v ∧ TableReference.check v = .ok j.table := by
  obtain ⟨_, _, _, _, _, _, parts, formed⟩ := ofFields_ok.mp h
  rw [ofParts_table formed]
  obtain ⟨v, found, checked⟩ | ⟨-, absent⟩ := checkField_ok.mp parts.table
  · exact ⟨v, found, Checked.ofExcept_ok.mp checked⟩
  · cases absent

end Join

theorem Call.joinOf_table {kind : JoinKind} {target first operator second : Value} {j : Join}
    (h : joinOf kind target first operator second = .ok j) :
    TableReference.check target = .ok j.table := by
  simp only [joinOf] at h
  split at h
  · obtain ⟨reference, read, h⟩ := ok_bind_iff.mp h
    obtain ⟨_, -, h⟩ := ok_bind_iff.mp h
    rw [Join.ofParts_table h]
    exact read
  · obtain ⟨reference, read, h⟩ := ok_bind_iff.mp h
    obtain ⟨_, -, h⟩ := ok_bind_iff.mp h
    obtain ⟨_, -, h⟩ := ok_bind_iff.mp h
    obtain ⟨_, -, h⟩ := ok_bind_iff.mp h
    rw [Join.ofParts_table h]
    exact read
  · cases h

end FluentSql
