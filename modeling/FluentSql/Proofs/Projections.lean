import Mathlib.Data.List.DropRight
import FluentSql.Proofs.ChainedCalls

/-!
Projections taken apart and put together. A scan is back where it began at every comma that
separates, so what stands between two of them is scanned by itself as it was in the whole text.
Hence the pieces of a text are the text again, and expressions can be given one by one or together.
-/

namespace FluentSql

namespace Text

variable {cs : List Char}

/-- A text is its trimmed form between blanks. -/
theorem trimChars_between (cs : List Char) :
    ∃ before after, cs = before ++ trimChars cs ++ after ∧
      (∀ c ∈ before, isBlank c = true) ∧ ∀ c ∈ after, isBlank c = true := by
  let back := (cs.dropWhile isBlank).reverse
  refine ⟨cs.takeWhile isBlank, (back.takeWhile isBlank).reverse, ?_,
    fun c hc => List.mem_takeWhile_imp hc,
    fun c hc => List.mem_takeWhile_imp (List.mem_reverse.mp hc)⟩
  have rest : trimChars cs ++ (back.takeWhile isBlank).reverse = cs.dropWhile isBlank := by
    rw [trimChars, ← List.reverse_append, List.takeWhile_append_dropWhile, List.reverse_reverse]
  rw [List.append_assoc, rest, List.takeWhile_append_dropWhile]

theorem dropWhile_trimChars (cs : List Char) :
    (trimChars cs).dropWhile isBlank = trimChars cs := by
  obtain ⟨after, rest⟩ : trimChars cs <+: cs.dropWhile isBlank := by
    rw [trimChars, ← List.reverse_suffix, List.reverse_reverse]
    exact List.dropWhile_suffix _
  cases trimmed : trimChars cs with
  | nil => rfl
  | cons c front =>
      -- the first character that is left is the first one that is not blank
      have first := List.head?_dropWhile_not isBlank cs
      rw [← rest, trimmed] at first
      exact List.dropWhile_cons_of_neg (Bool.eq_false_iff.mp first)

theorem trimChars_trimChars (cs : List Char) : trimChars (trimChars cs) = trimChars cs := by
  have back : ((trimChars cs).reverse.dropWhile isBlank).reverse = trimChars cs := by
    rw [trimChars, List.reverse_reverse, List.dropWhile_idempotent isBlank]
  exact (congrArg (fun front => (front.reverse.dropWhile isBlank).reverse)
    (dropWhile_trimChars cs)).trans back

end Text

namespace Projection

namespace Scan

variable {s : Scan} {c : Char}

/-- The characters that open a quote, and close the one they opened. -/
def isQuote (c : Char) : Bool := c = '\'' || c = '"' || c = '\x60'

/-- The open quote of a scan is a quote. -/
def IsSound (s : Scan) : Prop := ∀ q, s.quote = some q → isQuote q = true

theorem isSound_start : IsSound {} := nofun

theorem step_open {d : Int} {q : Char} :
    step ⟨d, some q⟩ c = if c = q then ⟨d, none⟩ else ⟨d, some q⟩ := rfl

theorem step_quote {d : Int} (quote : isQuote c = true) : step ⟨d, none⟩ c = ⟨d, some c⟩ :=
  if_pos quote

theorem step_plain {d : Int} (plain : isQuote c = false) :
    step ⟨d, none⟩ c =
      ⟨d + (if c = '(' then 1 else 0) - (if c = ')' then 1 else 0), none⟩ := by
  have other : ¬ (c = '\'' || c = '"' || c = '\x60') = true := Bool.eq_false_iff.mp plain
  simp only [step, other]
  by_cases opening : c = '('
  · subst opening
    simp
  · by_cases closing : c = ')' <;> simp [opening, closing]

theorem isSound_step (sound : s.IsSound) (c : Char) : (s.step c).IsSound := by
  obtain ⟨d, quote⟩ := s
  cases quote with
  | some q =>
      rw [step_open]
      split
      · exact nofun
      · exact sound
  | none =>
      cases kind : isQuote c with
      | true =>
          rw [step_quote kind]
          rintro q ⟨⟩
          exact kind
      | false =>
          rw [step_plain kind]
          exact nofun

theorem isQuote_not_blank (blank : Text.isBlank c = true) : isQuote c = false := by
  rw [Bool.eq_false_iff]
  intro quote
  simp only [isQuote, Bool.or_eq_true, decide_eq_true_eq] at quote
  obtain (rfl | rfl) | rfl := quote <;> cases blank

theorem step_blank (sound : s.IsSound) (blank : Text.isBlank c = true) : s.step c = s := by
  obtain ⟨d, quote⟩ := s
  cases quote with
  | some q =>
      refine if_neg fun same => ?_
      have quote := sound q rfl
      rw [← same, isQuote_not_blank blank] at quote
      cases quote
  | none =>
      have opening : c ≠ '(' := by rintro rfl; cases blank
      have closing : c ≠ ')' := by rintro rfl; cases blank
      rw [step_plain (isQuote_not_blank blank), if_neg opening, if_neg closing]
      simp

theorem separates_iff : s.separates c = true ↔ s = {} ∧ c = ',' := by
  obtain ⟨d, quote⟩ := s
  cases quote <;> simp [separates]

theorem separates_blank (blank : Text.isBlank c = true) : s.separates c = false := by
  rw [Bool.eq_false_iff]
  intro separates
  obtain ⟨-, rfl⟩ := separates_iff.mp separates
  cases blank

theorem closed_iff : s.closed = true ↔ s = {} := by
  obtain ⟨d, quote⟩ := s
  cases quote <;> simp [closed]

end Scan

open Scan (IsSound)

variable {s final : Scan} {c : Char} {cs : List Char}

theorem pieces_comma (cs : List Char) :
    pieces {} (',' :: cs) = ([] :: (pieces {} cs).1, (pieces {} cs).2) := rfl

theorem pieces_ne_nil (s : Scan) (cs : List Char) : (pieces s cs).1 ≠ [] := by
  cases cs with
  | nil => exact List.cons_ne_nil _ _
  | cons c cs =>
      simp only [pieces]
      split
      · exact List.cons_ne_nil _ _
      · split <;> exact List.cons_ne_nil _ _

theorem pieces_cons (other : s.separates c = false) (cs : List Char) :
    ∃ first rest final, pieces (s.step c) cs = (first :: rest, final) ∧
      pieces s (c :: cs) = ((c :: first) :: rest, final) := by
  obtain ⟨first, rest, found⟩ := List.exists_cons_of_ne_nil (pieces_ne_nil (s.step c) cs)
  have later : pieces (s.step c) cs = (first :: rest, (pieces (s.step c) cs).2) :=
    Prod.ext found rfl
  refine ⟨first, rest, _, later, ?_⟩
  rw [pieces, other, later]
  rfl

/-- A text begins with a character that separates, or its first piece begins with the character. -/
theorem pieces_cons_cases (s : Scan) (c : Char) (cs : List Char) :
    (s = {} ∧ c = ',') ∨
      ∃ first rest final, s.separates c = false ∧ pieces (s.step c) cs = (first :: rest, final) ∧
        pieces s (c :: cs) = ((c :: first) :: rest, final) := by
  cases other : s.separates c with
  | true => exact .inl (Scan.separates_iff.mp other)
  | false =>
      obtain ⟨first, rest, final, later, found⟩ := pieces_cons other cs
      exact .inr ⟨first, rest, final, rfl, later, found⟩

/-- The pieces with commas between them are the text. -/
theorem pieces_join (s : Scan) (cs : List Char) : [','].intercalate (pieces s cs).1 = cs := by
  induction cs generalizing s with
  | nil => rfl
  | cons c cs ih =>
      obtain ⟨rfl, rfl⟩ | ⟨first, rest, final, -, later, found⟩ := pieces_cons_cases s c cs
      · obtain ⟨first, rest, later⟩ := List.exists_cons_of_ne_nil (pieces_ne_nil {} cs)
        have joined := ih {}
        rw [later] at joined
        rw [pieces_comma, later, List.intercalate_cons_cons, joined]
        rfl
      · have joined := ih (s.step c)
        rw [later] at joined
        rw [found, ← joined]
        cases rest <;> rfl

/-- A scan that is back at its start before a comma goes on as if it began there. -/
theorem pieces_append {found : List (List Char)} (h : pieces s cs = (found, {}))
    (more : List Char) :
    pieces s (cs ++ ',' :: more) = (found ++ (pieces {} more).1, (pieces {} more).2) := by
  induction cs generalizing s found with
  | nil =>
      cases h
      exact pieces_comma more
  | cons c cs ih =>
      obtain ⟨rfl, rfl⟩ | ⟨first, rest, final, other, later, whole⟩ := pieces_cons_cases s c cs
      · rw [pieces_comma] at h
        obtain ⟨rfl, ended⟩ := Prod.mk.inj h
        rw [List.cons_append, pieces_comma, ih (Prod.ext rfl ended)]
        rfl
      · rw [whole] at h
        cases h
        -- the character goes before the first piece of the longer text too
        obtain ⟨first', rest', final', later', whole'⟩ := pieces_cons other (cs ++ ',' :: more)
        rw [ih later] at later'
        cases later'
        exact whole'

/-- Every piece of a text that is scanned to the end is one piece by itself. -/
theorem pieces_apart {first : List Char} {rest : List (List Char)}
    (h : pieces s cs = (first :: rest, {})) :
    pieces s first = ([first], {}) ∧ ∀ piece ∈ rest, pieces {} piece = ([piece], {}) := by
  induction cs generalizing s first rest with
  | nil =>
      cases h
      exact ⟨rfl, List.forall_mem_nil _⟩
  | cons c cs ih =>
      obtain ⟨rfl, rfl⟩ | ⟨first', rest', final, other, later, whole⟩ := pieces_cons_cases s c cs
      · obtain ⟨next, others, found⟩ := List.exists_cons_of_ne_nil (pieces_ne_nil {} cs)
        rw [pieces_comma, found] at h
        obtain ⟨pieces, ended⟩ := Prod.mk.inj h
        cases pieces
        exact ⟨rfl, List.forall_mem_cons.mpr (ih (Prod.ext found ended))⟩
      · rw [whole] at h
        cases h
        obtain ⟨alone, others⟩ := ih later
        obtain ⟨_, _, _, later', whole'⟩ := pieces_cons other first'
        rw [alone] at later'
        cases later'
        exact ⟨whole', others⟩

theorem pieces_single_cons (other : s.separates c = false) :
    pieces s (c :: cs) = ([c :: cs], final) ↔ pieces (s.step c) cs = ([cs], final) := by
  obtain ⟨first, rest, ended, later, whole⟩ := pieces_cons other cs
  rw [later, whole]
  simp

theorem pieces_blanks (sound : s.IsSound) (blank : ∀ c ∈ cs, Text.isBlank c = true) :
    pieces s cs = ([cs], s) := by
  induction cs with
  | nil => rfl
  | cons c cs ih =>
      obtain ⟨first, others⟩ := List.forall_mem_cons.mp blank
      rw [pieces_single_cons (Scan.separates_blank first), Scan.step_blank sound first]
      exact ih others

theorem pieces_after_blanks {before : List Char} (front : ∀ c ∈ before, Text.isBlank c = true)
    (sound : s.IsSound) (h : pieces s (before ++ cs) = ([before ++ cs], final)) :
    pieces s cs = ([cs], final) := by
  induction before with
  | nil => exact h
  | cons c before ih =>
      obtain ⟨first, others⟩ := List.forall_mem_cons.mp front
      rw [List.cons_append, pieces_single_cons (Scan.separates_blank first),
        Scan.step_blank sound first] at h
      exact ih others h

theorem pieces_before_blanks {after : List Char} (back : ∀ c ∈ after, Text.isBlank c = true)
    (sound : s.IsSound) (h : pieces s (cs ++ after) = ([cs ++ after], final)) :
    pieces s cs = ([cs], final) := by
  induction cs generalizing s with
  | nil =>
      rw [List.nil_append, pieces_blanks sound back] at h
      cases h
      rfl
  | cons c cs ih =>
      rw [List.cons_append] at h
      cases other : s.separates c with
      | true =>
          -- a first comma makes two pieces
          obtain ⟨rfl, rfl⟩ := Scan.separates_iff.mp other
          rw [pieces_comma] at h
          cases h
      | false =>
          rw [pieces_single_cons other] at h ⊢
          exact ih (Scan.isSound_step sound c) h

/-- What is one piece between blanks is one piece without them. -/
theorem pieces_trimmed {before after : List Char} (front : ∀ c ∈ before, Text.isBlank c = true)
    (back : ∀ c ∈ after, Text.isBlank c = true)
    (h : pieces {} (before ++ cs ++ after) = ([before ++ cs ++ after], final)) :
    pieces {} cs = ([cs], final) := by
  rw [List.append_assoc] at h
  exact pieces_before_blanks back Scan.isSound_start
    (pieces_after_blanks front Scan.isSound_start h)

variable {given : String} {expressions : List String}

theorem screen_ok {role text kept : String} :
    screen role text = .ok kept ↔ isDangerous text = false ∧ text = kept := by
  cases danger : isDangerous text with
  | true => simp only [screen, danger, if_true, refuse, reduceCtorEq, false_and]
  | false => simp only [screen, danger, Bool.false_eq_true, if_false, Except.ok.injEq, true_and]

theorem mapM_screen {role : String} {es kept : List String} :
    es.mapM (screen role) = .ok kept ↔ (∀ e ∈ es, isDangerous e = false) ∧ es = kept := by
  simp only [mapM_ok_iff, screen_ok]
  rw [List.forall₂_and_left, List.forall₂_eq_eq_eq]

/-- A text is accepted when its scan ends where it began, no piece is blank and none is dangerous;
its expressions are the trimmed pieces. -/
theorem split_ok : split (.text given) = .ok expressions ↔
    ∃ found, pieces {} given.toList = (found, {}) ∧
      expressions = found.map (fun piece => String.ofList (Text.trimChars piece)) ∧
      ∀ e ∈ expressions, e ≠ "" ∧ isDangerous e = false := by
  obtain ⟨⟨found, final⟩, scanned⟩ : ∃ scanned, pieces {} given.toList = scanned := ⟨_, rfl⟩
  let trimmed := found.map fun piece => String.ofList (Text.trimChars piece)
  have ended : split (.text given) =
      if !final.closed || trimmed.any String.isEmpty then refuse (.malformedProjection given)
      else trimmed.mapM (screen "projection") := by
    rw [split, scanned]
  rw [ended, scanned]
  constructor
  · intro h
    split at h
    · cases h
    · next whole =>
        obtain ⟨closed, shown⟩ := Bool.or_eq_false_iff.mp (Bool.eq_false_iff.mpr whole)
        obtain ⟨harmless, rfl⟩ := mapM_screen.mp h
        refine ⟨found, ?_, rfl, fun e he => ⟨?_, harmless e he⟩⟩
        · rw [Scan.closed_iff.mp (Bool.not_eq_eq_eq_not.mp closed)]
        · rintro rfl
          exact absurd (List.any_eq_false.mp shown "" he) (by decide)
  · rintro ⟨_, same, rfl, shown⟩
    obtain ⟨rfl, rfl⟩ := Prod.mk.inj same
    rw [if_neg]
    · exact mapM_screen.mpr ⟨fun e he => (shown e he).2, rfl⟩
    · intro blank
      obtain ⟨e, he, empty⟩ := List.any_eq_true.mp blank
      exact (shown e he).1 (String.isEmpty_iff.mp empty)

section

variable (h : split (.text given) = .ok expressions)
include h

theorem split_ne_nil : expressions ≠ [] := by
  obtain ⟨found, scanned, rfl, -⟩ := split_ok.mp h
  have some := pieces_ne_nil {} given.toList
  rw [scanned] at some
  exact fun none => some (List.map_eq_nil_iff.mp none)

/-- Nothing of a text is lost but the commas and the blanks beside them. -/
theorem split_lossless :
    ∃ texts : List String, given = ",".intercalate texts ∧ expressions = texts.map Text.trim := by
  obtain ⟨found, scanned, rfl, -⟩ := split_ok.mp h
  refine ⟨found.map String.ofList, ?_, ?_⟩
  · have joined := pieces_join {} given.toList
    rw [scanned] at joined
    apply String.toList_injective
    rw [String.toList_intercalate, List.map_map, ← joined]
    simp [Function.comp_def]
  · simp [Text.trim]

theorem split_trimmed : ∀ e ∈ expressions, e ≠ "" ∧ Text.trim e = e := by
  obtain ⟨found, -, rfl, shown⟩ := split_ok.mp h
  intro e he
  refine ⟨(shown e he).1, ?_⟩
  obtain ⟨piece, -, rfl⟩ := List.mem_map.mp he
  rw [Text.trim, String.toList_ofList, Text.trimChars_trimChars]

/-- The scan of an expression by itself ends where it began. -/
theorem pieces_expression : ∀ e ∈ expressions, pieces {} e.toList = ([e.toList], {}) := by
  obtain ⟨found, scanned, rfl, -⟩ := split_ok.mp h
  have alone : ∀ piece ∈ found, pieces {} piece = ([piece], {}) := by
    cases found with
    | nil => exact List.forall_mem_nil _
    | cons first rest =>
        obtain ⟨head, others⟩ := pieces_apart scanned
        exact List.forall_mem_cons.mpr ⟨head, others⟩
  intro e he
  obtain ⟨piece, hpiece, rfl⟩ := List.mem_map.mp he
  obtain ⟨before, after, whole, front, back⟩ := Text.trimChars_between piece
  have single := alone piece hpiece
  rw [whole] at single
  rw [String.toList_ofList]
  exact pieces_trimmed front back single

theorem split_expression : ∀ e ∈ expressions, split (.text e) = .ok [e] := by
  intro e he
  obtain ⟨shown, trimmed⟩ := split_trimmed h e he
  obtain ⟨-, -, -, harmless⟩ := split_ok.mp h
  refine split_ok.mpr ⟨[e.toList], pieces_expression h e he, congrArg ([·]) trimmed.symm, ?_⟩
  exact List.forall_mem_cons.mpr ⟨⟨shown, (harmless e he).2⟩, List.forall_mem_nil _⟩

theorem split_append {other : String} {others : List String}
    (h' : split (.text other) = .ok others) :
    split (.text (given ++ "," ++ other)) = .ok (expressions ++ others) := by
  obtain ⟨found, scanned, rfl, shown⟩ := split_ok.mp h
  obtain ⟨found', scanned', rfl, shown'⟩ := split_ok.mp h'
  have chars : (given ++ "," ++ other).toList = given.toList ++ ',' :: other.toList := by simp
  refine split_ok.mpr ⟨found ++ found', ?_, (List.map_append ..).symm, ?_⟩
  · rw [chars, pieces_append scanned, scanned']
  · exact List.forall_mem_append.mpr ⟨shown, shown'⟩

end

end Projection

namespace Call

open Projection (split)

variable {given : String} {expressions : List String} {columns : List Value}

/-- The columns that a SELECT keeps; a star by itself stands for all columns. -/
def keptColumns (expressions : List String) : List String :=
  if expressions = ["*"] then [] else expressions

theorem projection_text (h : split (.text given) = .ok expressions) :
    projection [.text given] = .ok (keptColumns expressions) := by
  have items : [Value.text given].mapM split = .ok [expressions] := by
    rw [List.mapM_cons, h]
    rfl
  simp only [projection]
  refine ok_bind_iff.mpr ⟨_, items, ?_⟩
  rw [List.flatten_singleton, keptColumns]

/-- Expressions may be given one by one, and in lists with others. -/
theorem projection_items (alone : ∀ e ∈ expressions, split (.text e) = .ok [e])
    (some : expressions ≠ [])
    (items : columns.flatMap (fun column => (column.sequence?).getD [column]) =
      expressions.map .text) :
    projection columns = .ok (keptColumns expressions) := by
  have given : columns.isEmpty = false := by
    cases columns with
    | nil => exact absurd (List.map_eq_nil_iff.mp items.symm) some
    | cons column columns => rfl
  have each : (expressions.map Value.text).mapM split = .ok (expressions.map ([·])) := by
    rw [mapM_ok_iff, List.forall₂_map_left_iff, List.forall₂_map_right_iff, List.forall₂_same]
    exact alone
  simp only [projection, given, Bool.false_eq_true, if_false, items]
  refine ok_bind_iff.mpr ⟨_, each, ?_⟩
  rw [← List.flatMap_def, List.flatMap_singleton', keptColumns]

theorem apply_select_of_projection {columns' : List Value}
    (same : projection columns = projection columns') (s : Statement) :
    apply s (.select columns) = apply s (.select columns') := by
  simp only [apply, same]

end Call

namespace Projection

variable {given : String} {expressions : List String}

/-- Splitting a projection loses nothing and can be done piece by piece. An accepted text is its
expressions with blanks around them and commas between them; an expression is neither empty nor
between blanks and splits into itself; and two texts with a comma between them give the expressions
of both. So a SELECT gets the same columns from the text as from its expressions, whether these come
as arguments of their own or in lists. -/
theorem projections_come_apart (h : split (.text given) = .ok expressions) :
    (∃ texts : List String, given = ",".intercalate texts ∧ expressions = texts.map Text.trim) ∧
      (∀ e ∈ expressions, e ≠ "" ∧ Text.trim e = e ∧ split (.text e) = .ok [e]) ∧
      (∀ other others, split (.text other) = .ok others →
        split (.text (given ++ "," ++ other)) = .ok (expressions ++ others)) ∧
      (∀ columns : List Value,
        columns.flatMap (fun column => (column.sequence?).getD [column]) =
          expressions.map .text →
        ∀ b : Builder, b.chain (.select columns) = b.chain (.select [.text given]) ∧
          (b.consumed = false →
            b.statement.operation = none ∨ b.statement.operation = some .select →
            b.chain (.select columns) =
              (⟨{ b.statement with
                  operation := some .select
                  columns := Call.keptColumns expressions }, false⟩, none))) := by
  refine ⟨split_lossless h, fun e he => ?_, fun other others => split_append h,
    fun columns items b => ?_⟩
  · obtain ⟨shown, trimmed⟩ := split_trimmed h e he
    exact ⟨shown, trimmed, split_expression h e he⟩
  · have read := Call.projection_items (split_expression h) (split_ne_nil h) items
    have same := Call.apply_select_of_projection (read.trans (Call.projection_text h).symm)
    constructor
    · simp only [Builder.chain, same]
    · intro opened free
      rw [Builder.chain_open opened, Call.apply_accepted.mpr (.select free read), opened]

/-- A text with commas that do not separate, and its expressions in a list and by themselves. -/
theorem projections_come_apart_of_quoted :
    ∃ given expressions, given = " COALESCE(a, 'x,(y') AS c ,\td" ∧
      split (.text given) = .ok expressions ∧ expressions = ["COALESCE(a, 'x,(y') AS c", "d"] ∧
      split (.text "COALESCE(a, 'x,(y') AS c") = .ok ["COALESCE(a, 'x,(y') AS c"] ∧
      split (.text (given ++ "," ++ "*")) = .ok (expressions ++ ["*"]) ∧
      ({} : Builder).chain (.select [.list [.text "COALESCE(a, 'x,(y') AS c"], .text "d"]) =
        (⟨{ operation := some .select, columns := expressions }, false⟩, none) := by
  have h : split (.text " COALESCE(a, 'x,(y') AS c ,\td") =
      .ok ["COALESCE(a, 'x,(y') AS c", "d"] := toOption_some.mp (by decide +kernel)
  have star : split (.text "*") = .ok ["*"] := toOption_some.mp (by decide +kernel)
  obtain ⟨-, each, append, selects⟩ := projections_come_apart h
  refine ⟨_, _, rfl, h, rfl, (each _ List.mem_cons_self).2.2, append _ _ star, ?_⟩
  exact (selects _ rfl {}).2 rfl (.inl rfl)

end Projection
end FluentSql
