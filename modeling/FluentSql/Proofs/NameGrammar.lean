import FluentSql.Proofs.CanonicalReferences
import FluentSql.Proofs.FittingParams

/-!
The grammar of names. A name that passes its check is a row of parts with dots between them, where
every part but the first may be a star; it has the documented form when no star stands before its
end. The name of a table reference holds no star at all. Its alias is one part, which is not checked
again: it may be of any length, and hold the letters beyond ASCII that count as ASCII letters in
another case.
-/

namespace FluentSql

namespace Identifier

def IsFirst (c : Char) : Prop := ('A' ≤ c ∧ c ≤ 'Z') ∨ ('a' ≤ c ∧ c ≤ 'z') ∨ c = '_'

def IsNext (c : Char) : Prop := IsFirst c ∨ ('0' ≤ c ∧ c ≤ '9') ∨ c = '$'

/-- A part of at most 128 characters of ASCII. -/
def IsShortPart (part : List Char) : Prop :=
  (∃ c rest, part = c :: rest ∧ IsFirst c ∧ ∀ d ∈ rest, IsNext d) ∧ part.length ≤ 128

/-- Parts with dots between them. -/
def IsPlain (cs : List Char) : Prop :=
  ∃ parts, parts ≠ [] ∧ (∀ part ∈ parts, IsShortPart part) ∧ cs = ['.'].intercalate parts

/-- The documented form of a name: parts with dots between them, and perhaps a star at the end. -/
def IsDocumented (cs : List Char) : Prop :=
  IsPlain cs ∨ ∃ front, IsPlain front ∧ cs = front ++ ['.', '*']

/-- A part with parts and stars after it, and dots between them. -/
def IsStarred (cs : List Char) : Prop :=
  ∃ first rest, IsShortPart first ∧ (∀ piece ∈ rest, IsShortPart piece ∨ piece = ['*']) ∧
    cs = ['.'].intercalate (first :: rest)

theorem isPartStart_iff {c : Char} : isPartStart c = true ↔ IsFirst c := by
  have ranges : isPartStart c = (decide ('A' ≤ c ∧ c ≤ 'Z') ||
    (decide ('a' ≤ c) && decide (c ≤ 'z')) || c == '_') := rfl
  simp only [ranges, IsFirst, Bool.or_eq_true, Bool.and_eq_true, decide_eq_true_eq, beq_iff_eq,
    or_assoc]

theorem isPartChar_iff {c : Char} : isPartChar c = true ↔ IsNext c := by
  have ranges : isPartChar c = (c.isAlpha || (decide ('0' ≤ c) && decide (c ≤ '9')) || c == '_' ||
    c == '$') := rfl
  have first : c.isAlpha = true ∨ c = '_' ↔ IsFirst c := by
    rw [← isPartStart_iff, isPartStart, Bool.or_eq_true, beq_iff_eq]
  simp only [ranges, IsNext, ← first, Bool.or_eq_true, Bool.and_eq_true, decide_eq_true_eq,
    beq_iff_eq]
  tauto

theorem isShortPart_iff {part : List Char} :
    IsShortPart part ↔ isPart part = true ∧ part.length ≤ maxLength := by
  refine and_congr ?_ Iff.rfl
  cases part with
  | nil => simp [isPart]
  | cons c rest => simp [isPart, isPartStart_iff, isPartChar_iff]

theorem splitDots_eq (cs : List Char) : splitDots cs = cs.splitOn '.' := by
  induction cs with
  | nil => rfl
  | cons c cs ih =>
      rw [List.splitOn_cons_eq_if_modifyHead, ← ih]
      by_cases dot : c = '.'
      · rw [dot, splitDots_dot, if_pos (beq_self_eq_true '.')]
      · obtain ⟨first, rest, later, split⟩ := splitDots_cons dot cs
        rw [split, later, if_neg (by simpa using dot), List.modifyHead_cons]

theorem intercalate_splitDots (cs : List Char) : ['.'].intercalate (splitDots cs) = cs := by
  rw [splitDots_eq, List.intercalate_splitOn]

theorem splitDots_intercalate {pieces : List (List Char)} (given : pieces ≠ [])
    (undotted : ∀ piece ∈ pieces, '.' ∉ piece) :
    splitDots (['.'].intercalate pieces) = pieces := by
  rw [splitDots_eq, List.splitOn_intercalate '.' undotted given]

/-- A last piece goes behind a dot. -/
theorem intercalate_concat {pieces : List (List Char)} (given : pieces ≠ []) (last : List Char) :
    ['.'].intercalate (pieces ++ [last]) = ['.'].intercalate pieces ++ '.' :: last := by
  induction pieces with
  | nil => exact absurd rfl given
  | cons piece pieces ih =>
      cases pieces with
      | nil => simp [List.intercalate_cons_cons]
      | cons piece' pieces =>
          have longer := ih (List.cons_ne_nil _ _)
          rw [List.cons_append] at longer
          rw [List.cons_append, List.cons_append, List.intercalate_cons_cons, longer,
            List.intercalate_cons_cons]
          simp only [List.append_assoc]

theorem not_isNext_dot : ¬ IsNext '.' := by
  rw [← isPartChar_iff]
  decide

theorem not_isNext_star : ¬ IsNext '*' := by
  rw [← isPartChar_iff]
  decide

namespace IsShortPart

variable {part : List Char}

theorem chars (h : IsShortPart part) : ∀ c ∈ part, IsNext c := by
  obtain ⟨⟨c, rest, rfl, first, next⟩, -⟩ := h
  exact List.forall_mem_cons.mpr ⟨.inl first, next⟩

theorem no_dot (h : IsShortPart part) : '.' ∉ part :=
  fun found => not_isNext_dot (h.chars _ found)

theorem no_star (h : IsShortPart part) : '*' ∉ part :=
  fun found => not_isNext_star (h.chars _ found)

end IsShortPart

theorem no_dot_of_starred {piece : List Char} (h : IsShortPart piece ∨ piece = ['*']) :
    '.' ∉ piece := by
  obtain part | rfl := h
  · exact part.no_dot
  · decide

variable {cs : List Char}

/-- What the check asks of a name, apart from the blanks around it. -/
theorem isStarred_iff : IsStarred cs ↔
    isDotted cs = true ∧ ∀ piece ∈ splitDots cs, piece.length ≤ maxLength := by
  constructor
  · rintro ⟨first, rest, part, others, rfl⟩
    have undotted : ∀ piece ∈ first :: rest, '.' ∉ piece :=
      List.forall_mem_cons.mpr ⟨part.no_dot, fun piece h => no_dot_of_starred (others piece h)⟩
    rw [isDotted, splitDots_intercalate (List.cons_ne_nil _ _) undotted]
    have start := isShortPart_iff.mp part
    refine ⟨Bool.and_eq_true_iff.mpr ⟨start.1, List.all_eq_true.mpr fun piece hpiece => ?_⟩,
      List.forall_mem_cons.mpr ⟨start.2, fun piece hpiece => ?_⟩⟩
    · obtain short | rfl := others piece hpiece
      · exact Bool.or_eq_true_iff.mpr (.inl (isShortPart_iff.mp short).1)
      · rfl
    · obtain short | rfl := others piece hpiece
      · exact (isShortPart_iff.mp short).2
      · decide
  · rintro ⟨dotted, short⟩
    rw [isDotted] at dotted
    have whole := intercalate_splitDots cs
    cases split : splitDots cs with
    | nil => exact absurd split (splitDots_ne_nil cs)
    | cons first rest =>
        rw [split] at dotted short whole
        obtain ⟨start, others⟩ := Bool.and_eq_true_iff.mp dotted
        obtain ⟨shortStart, shortOthers⟩ := List.forall_mem_cons.mp short
        refine ⟨first, rest, isShortPart_iff.mpr ⟨start, shortStart⟩, fun piece hpiece => ?_,
          whole.symm⟩
        obtain part | star := Bool.or_eq_true_iff.mp (List.all_eq_true.mp others piece hpiece)
        · exact .inl (isShortPart_iff.mpr ⟨part, shortOthers piece hpiece⟩)
        · exact .inr (beq_iff_eq.mp star)

theorem IsPlain.isStarred (h : IsPlain cs) : IsStarred cs := by
  obtain ⟨parts, given, short, rfl⟩ := h
  obtain ⟨first, rest, rfl⟩ := List.exists_cons_of_ne_nil given
  obtain ⟨start, others⟩ := List.forall_mem_cons.mp short
  exact ⟨first, rest, start, fun piece h => .inl (others piece h), rfl⟩

theorem IsPlain.no_star (h : IsPlain cs) : '*' ∉ cs := by
  obtain ⟨parts, given, short, rfl⟩ := h
  intro found
  obtain dot | ⟨part, hpart, inside⟩ := mem_splitDots found
  · cases dot
  · rw [splitDots_intercalate given fun part h => (short part h).no_dot] at hpart
    exact (short part hpart).no_star inside

/-- The documented names are those in which a star stands at the end only. -/
theorem isDocumented_iff : IsDocumented cs ↔ IsStarred cs ∧ '*' ∉ cs.dropLast := by
  constructor
  · rintro (plain | ⟨front, ⟨parts, given, short, rfl⟩, rfl⟩)
    · exact ⟨plain.isStarred, fun found => plain.no_star (List.dropLast_subset _ found)⟩
    · have plain : IsPlain (['.'].intercalate parts) := ⟨parts, given, short, rfl⟩
      obtain ⟨first, rest, rfl⟩ := List.exists_cons_of_ne_nil given
      obtain ⟨start, others⟩ := List.forall_mem_cons.mp short
      constructor
      · refine ⟨first, rest ++ [['*']], start, List.forall_mem_append.mpr
          ⟨fun piece h => .inl (others piece h), List.forall_mem_singleton.mpr (.inr rfl)⟩, ?_⟩
        exact (intercalate_concat (List.cons_ne_nil first rest) ['*']).symm
      · rw [List.dropLast_append_of_ne_nil (List.cons_ne_nil _ _)]
        intro found
        obtain found | dot := List.mem_append.mp found
        · exact plain.no_star found
        · exact absurd dot (by decide)
  · rintro ⟨⟨first, rest, start, others, rfl⟩, starless⟩
    obtain rfl | ⟨init, last, rfl⟩ := List.eq_nil_or_concat' rest
    · exact .inl ⟨[first], List.cons_ne_nil _ _, List.forall_mem_singleton.mpr start, rfl⟩
    -- all that stands before the last dot has no star in it
    obtain ⟨inner, ending⟩ := List.forall_mem_append.mp others
    have split := intercalate_concat (List.cons_ne_nil first init) last
    rw [List.cons_append] at split
    rw [split, List.dropLast_append_of_ne_nil (List.cons_ne_nil _ _)] at starless
    have undotted : ∀ piece ∈ first :: init, '.' ∉ piece :=
      List.forall_mem_cons.mpr ⟨start.no_dot, fun piece h => no_dot_of_starred (inner piece h)⟩
    have parts : ∀ piece ∈ first :: init, IsShortPart piece := by
      refine List.forall_mem_cons.mpr
        ⟨start, fun piece hpiece => (inner piece hpiece).resolve_right ?_⟩
      rintro rfl
      have stands : ['*'] ∈ splitDots (['.'].intercalate (first :: init)) := by
        rw [splitDots_intercalate (List.cons_ne_nil _ _) undotted]
        exact List.mem_cons_of_mem first hpiece
      have inside := splitDots_infix stands
      exact starless (List.mem_append_left _ (inside.mem List.mem_cons_self))
    have plain : IsPlain (['.'].intercalate (first :: init)) :=
      ⟨_, List.cons_ne_nil _ _, parts, rfl⟩
    obtain short | rfl := List.forall_mem_singleton.mp ending
    · exact .inl ⟨first :: (init ++ [last]), List.cons_ne_nil _ _,
        List.forall_mem_append.mpr ⟨parts, List.forall_mem_singleton.mpr short⟩, rfl⟩
    · exact .inr ⟨_, plain, split⟩

variable {role name : String} {v : Value}

theorem isEmpty_of_isDotted (h : isDotted name.toList = true) : name.isEmpty = false := by
  rw [Bool.eq_false_iff]
  intro empty
  rw [String.isEmpty_iff.mp empty] at h
  cases h

theorem check_ok_iff : check role v = .ok name ↔
    ∃ s, v = .text s ∧ name = Text.trim s ∧ IsStarred name.toList := by
  rw [check_ok]
  refine exists_congr fun s => and_congr_right fun _ => and_congr_right fun _ => ?_
  rw [isStarred_iff]
  exact ⟨And.right, fun h => ⟨isEmpty_of_isDotted h.1, h⟩⟩

theorem accepted_iff : Accepted name ↔ IsStarred name.toList := by
  constructor
  · intro h
    obtain ⟨-, -, -, starred⟩ := check_ok_iff.mp (h "column")
    exact starred
  · intro h role
    have dotted := (isStarred_iff.mp h).1
    have trimmed : Text.trim name = name :=
      Text.trim_of_not_blank fun c hc => isNameChar_not_blank (isDotted_chars dotted c hc)
    exact check_ok_iff.mpr ⟨name, rfl, trimmed.symm, h⟩

/-- An empty name is reported as an invalid one, unless a number is given in its place that cannot
be written into the report. -/
theorem emptyName_code (role : String) (v : Value) :
    (Refusal.emptyName role v).toError.code? = some .invalidIdentifier ∨
      v.isWritable = false ∧ (Refusal.emptyName role v).toError = .raised .tooManyDigits := by
  have shown : (Refusal.emptyName role v).shown.all Value.isWritable = v.isWritable :=
    Bool.and_true _
  rw [Refusal.toError, shown]
  cases writable : v.isWritable with
  | true => exact .inl rfl
  | false => exact .inr ⟨rfl, rfl⟩

theorem check_refused (refused : ∀ name, check role v ≠ .ok name) :
    ∃ e, check role v = .error e ∧ (e.code? = some .invalidIdentifier ∨
      v.isWritable = false ∧ e = .raised .tooManyDigits) := by
  cases v with
  | text s =>
      simp only [check] at refused ⊢
      split
      · exact ⟨_, rfl, emptyName_code role _⟩
      · split
        · exact ⟨_, rfl, .inl rfl⟩
        · split
          · exact ⟨_, rfl, .inl rfl⟩
          · next given dotted short =>
              rw [if_neg given, if_neg dotted, if_neg short] at refused
              exact absurd rfl (refused _)
  | _ => exact ⟨_, rfl, emptyName_code role _⟩

/-- The check of a name accepts texts, takes the blanks around them away, and then accepts a part
with parts and stars after it. So every name of the documented form is accepted, and no others are
but those in which a star stands before the end. All else is reported as an invalid name. -/
theorem names_follow_their_grammar (role : String) (v : Value) :
    (∀ name, check role v = .ok name ↔
        ∃ s, v = .text s ∧ name = Text.trim s ∧ IsStarred name.toList) ∧
      (∀ name, check role v = .ok name ∧ '*' ∉ name.toList.dropLast ↔
        ∃ s, v = .text s ∧ name = Text.trim s ∧ IsDocumented name.toList) ∧
      ((∀ name, check role v ≠ .ok name) →
        ∃ e, check role v = .error e ∧ (e.code? = some .invalidIdentifier ∨
          v.isWritable = false ∧ e = .raised .tooManyDigits)) := by
  refine ⟨fun name => check_ok_iff, fun name => ?_, check_refused⟩
  rw [check_ok_iff, ← exists_and_right]
  refine exists_congr fun s => ?_
  rw [isDocumented_iff, and_assoc, and_assoc]

theorem names_follow_their_grammar_of_qualified :
    check "column" (.text "\tapp.users.* ") = .ok "app.users.*" ∧
      IsDocumented "app.users.*".toList ∧
      ∃ e, check "column" (.list [.text "id"]) = .error e ∧
        e.code? = some .invalidIdentifier := by
  have h : check "column" (.text "\tapp.users.* ") = .ok "app.users.*" :=
    toOption_some.mp (by decide +kernel)
  obtain ⟨-, documented, -⟩ := names_follow_their_grammar "column" (.text "\tapp.users.* ")
  obtain ⟨-, -, -, form⟩ := (documented "app.users.*").mp ⟨h, by decide⟩
  obtain ⟨-, -, refused⟩ := names_follow_their_grammar "column" (.list [.text "id"])
  obtain ⟨e, he, code | ⟨unwritable, -⟩⟩ := refused fun name given => by cases given
  · exact ⟨h, form, e, he, code⟩
  · cases unwritable

/-- A star in the middle of a name is accepted, against the documented form. -/
theorem inner_star_is_accepted :
    check "identifier" (.text "a.*.b") = .ok "a.*.b" ∧ ¬ IsDocumented "a.*.b".toList := by
  refine ⟨toOption_some.mp (by decide +kernel), fun documented => ?_⟩
  exact (isDocumented_iff.mp documented).2 (by decide)

theorem isStarred_undotted {cs : List Char} (undotted : '.' ∉ cs) :
    IsStarred cs ↔ IsShortPart cs := by
  have single : splitDots cs = [cs] := by rw [splitDots_eq, List.splitOn_eq_singleton undotted]
  rw [isStarred_iff, isDotted, single, isShortPart_iff]
  simp

end Identifier

namespace TableReference

open Identifier (Accepted IsPlain IsFirst IsNext IsShortPart)

variable {v : Value} {t : TableReference} {cs : List Char}

theorem not_isNext_folded {c : Char} (h : isFoldedLetter c = true) : ¬ IsNext c := by
  rw [← Identifier.isPartChar_iff]
  simp only [isFoldedLetter, Bool.or_eq_true, beq_iff_eq] at h
  obtain ((rfl | rfl) | rfl) | rfl := h <;> decide

theorem isPart_iff : isPart cs = true ↔ ∃ c rest, cs = c :: rest ∧
    (IsFirst c ∨ isFoldedLetter c = true) ∧ ∀ d ∈ rest, IsNext d ∨ isFoldedLetter d = true := by
  cases cs with
  | nil => simp [isPart]
  | cons c rest =>
      simp [isPart, isPartStart, isPartChar, Identifier.isPartStart_iff, Identifier.isPartChar_iff]

/-- A part of a reference is a part of a name when it is short and holds none of the four letters
beyond ASCII. -/
theorem isShortPart_of_isPart (part : isPart cs = true) :
    IsShortPart cs ↔ cs.length ≤ 128 ∧ ∀ c ∈ cs, isFoldedLetter c = false := by
  obtain ⟨c, rest, rfl, first, next⟩ := isPart_iff.mp part
  constructor
  · intro short
    refine ⟨short.2, fun d hd => ?_⟩
    rw [Bool.eq_false_iff]
    exact fun folded => not_isNext_folded folded (short.chars d hd)
  · rintro ⟨short, unfolded⟩
    obtain ⟨start, others⟩ := List.forall_mem_cons.mp unfolded
    have plain : ∀ d ∈ rest, IsNext d := fun d hd =>
      (next d hd).resolve_right (Bool.eq_false_iff.mp (others d hd))
    exact ⟨⟨c, rest, rfl, first.resolve_right (Bool.eq_false_iff.mp start), plain⟩, short⟩

theorem isPart_undotted (part : isPart cs = true) : '.' ∉ cs := by
  intro found
  cases isPart_chars part '.' found

/-- The name of a reference has no star in it. -/
theorem split_name_isPlain (h : split v = .ok t) : IsPlain t.name.toList := by
  obtain ⟨s, name, other, -, -, words, -, checked, -⟩ := split_ok.mp h
  have dotted := (ofWords_parts words).1
  have named := name_of_word dotted checked
  obtain ⟨-, -, -, first, rest, start, others, whole⟩ := Identifier.check_ok_iff.mp checked
  rw [named, String.toList_ofList] at whole ⊢
  have undotted : ∀ piece ∈ first :: rest, '.' ∉ piece := List.forall_mem_cons.mpr
    ⟨start.no_dot, fun piece hpiece => Identifier.no_dot_of_starred (others piece hpiece)⟩
  rw [isDotted, whole, Identifier.splitDots_intercalate (List.cons_ne_nil _ _) undotted] at dotted
  refine ⟨first :: rest, List.cons_ne_nil _ _, List.forall_mem_cons.mpr
    ⟨start, fun piece hpiece => (others piece hpiece).resolve_right ?_⟩, whole⟩
  rintro rfl
  cases List.all_eq_true.mp dotted _ (List.mem_cons_of_mem first hpiece)

/-- The name of an accepted reference passes as a name by itself and has no star in it. Its alias is
one part in which four letters beyond ASCII may stand, and it passes as a name exactly when it holds
none of these and is no longer than a part of a name, which is not checked. -/
theorem references_hold_names (h : split v = .ok t) :
    Accepted t.name ∧ IsPlain t.name.toList ∧
      ∀ other ∈ t.shortName,
        (∃ c rest, other.toList = c :: rest ∧ (IsFirst c ∨ isFoldedLetter c = true) ∧
          ∀ d ∈ rest, IsNext d ∨ isFoldedLetter d = true) ∧
        (Accepted other ↔ IsShortPart other.toList) ∧
        (IsShortPart other.toList ↔
          other.toList.length ≤ 128 ∧ ∀ c ∈ other.toList, isFoldedLetter c = false) := by
  obtain ⟨name, shortName⟩ := split_parts h
  refine ⟨name, split_name_isPlain h, fun other hother => ?_⟩
  have part := shortName other hother
  refine ⟨isPart_iff.mp part, ?_, isShortPart_of_isPart part⟩
  rw [Identifier.accepted_iff, Identifier.isStarred_undotted (isPart_undotted part)]

theorem references_hold_names_of_qualified :
    split (.text " app.users\tas U$1 ") = .ok ⟨"app.users", some "U$1"⟩ ∧
      Accepted "app.users" ∧ Accepted "U$1" := by
  have h : split (.text " app.users\tas U$1 ") = .ok ⟨"app.users", some "U$1"⟩ :=
    toOption_some.mp (by decide +kernel)
  obtain ⟨name, -, parts⟩ := references_hold_names h
  obtain ⟨-, accepted, short⟩ := parts "U$1" rfl
  have unfolded : ∀ c ∈ "U$1".toList, isFoldedLetter c = false := by simp [isFoldedLetter]
  exact ⟨h, name, accepted.mpr (short.mpr ⟨by decide, unfolded⟩)⟩

/-- An alias that is a letter beyond ASCII, and one that is too long for a name. -/
theorem unchecked_aliases_are_accepted :
    let long := String.ofList (List.replicate 129 'a')
    split (.text "users \u017f") = .ok ⟨"users", some "\u017f"⟩ ∧ ¬ Accepted "\u017f" ∧
      split (.text ("users " ++ long)) = .ok ⟨"users", some long⟩ ∧ ¬ Accepted long := by
  have spaced (other : String) : ("users " ++ other).toList =
      [] ++ ("users".toList ++ ([' '] ++ (other.toList ++ []))) := by simp
  intro long
  have chars : long.toList = List.replicate 129 'a' := String.toList_ofList
  have part : isPart long.toList = true := by
    rw [chars]
    decide
  refine ⟨toOption_some.mp (by decide +kernel), fun accepted => ?_,
    split_text_iff.mpr ⟨⟨?_, ?_, ?_, ?_⟩, ?_⟩, fun accepted => ?_⟩
  · exact absurd (toOption_some.mpr (accepted "table")) (by decide +kernel)
  · decide
  · exact toOption_some.mp (by decide +kernel)
  · intro other held
    rw [← Option.some.inj held]
    exact part
  · decide +kernel
  · rw [spaced long]
    exact .aliased rfl nofun (List.cons_ne_nil _ _) (List.forall_mem_singleton.mpr (by decide))
      nofun
  · have starred := Identifier.accepted_iff.mp accepted
    obtain ⟨-, short⟩ := (Identifier.isStarred_undotted (isPart_undotted part)).mp starred
    rw [chars, List.length_replicate] at short
    exact absurd short (by decide)

end TableReference
end FluentSql
