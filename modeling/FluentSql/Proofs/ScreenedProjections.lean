import FluentSql.Proofs.BuiltStatements
import FluentSql.Proofs.CountedSelect
import FluentSql.Proofs.GuardedWrites
import FluentSql.Proofs.KeptValues
import FluentSql.Proofs.PatternMatches

/-!
Screened projections. The screen searches every expression by itself, after the blanks around it
were taken away, and nothing is missed by this: a dangerous pattern occurs in a whole projection
exactly when it occurs in one of its expressions. So none occurs in what a SELECT fetches, where the
expressions stand together again.
-/

namespace FluentSql

namespace Text

/-- The code points of the blanks. -/
def blankCodes : List Nat :=
  List.range' 9 5 ++ List.range' 28 5 ++ [0x85, 0xa0, 0x1680] ++ List.range' 0x2000 11 ++
    [0x2028, 0x2029, 0x202f, 0x205f, 0x3000]

theorem toNat_mem_blankCodes {c : Char} (blank : isBlank c = true) : c.toNat ∈ blankCodes := by
  simp only [isBlank, Bool.or_eq_true, Bool.and_eq_true, decide_eq_true_eq, beq_iff_eq] at blank
  simp only [blankCodes, List.mem_append, List.mem_range'_1, List.mem_cons, List.not_mem_nil,
    or_false]
  omega

theorem upperChar_blank {c : Char} (blank : isBlank c = true) : upperChar c = [c] := by
  have same : ∀ n ∈ blankCodes, upperChar (Char.ofNat n) = [Char.ofNat n] := by decide +kernel
  have code := same c.toNat (toNat_mem_blankCodes blank)
  rwa [Char.ofNat_toNat] at code

theorem upper_gap {gap : List Char} (blank : IsGap gap) : gap.flatMap upperChar = gap := by
  induction gap with
  | nil => rfl
  | cons c gap ih =>
      obtain ⟨first, others⟩ := List.forall_mem_cons.mp blank
      rw [List.flatMap_cons, upperChar_blank first, ih others]
      rfl

end Text

namespace Projection

open Text (IsGap)

/-- A dangerous pattern occurs in the text in upper case. -/
def HoldsPattern (text : String) : Prop :=
  ∃ pattern ∈ dangerousPatterns, Occurs pattern (Text.upper text).toList

variable {given : String} {cs : List Char}

theorem isDangerous_iff {text : String} : isDangerous text = true ↔ HoldsPattern text := by
  rw [isDangerous, List.any_eq_true]
  refine exists_congr fun pattern => and_congr_right fun found => ?_
  exact (dangerousPatterns_tight pattern found).occursIn_iff

theorem holdsPattern_ofList : HoldsPattern (String.ofList cs) ↔
    ∃ pattern ∈ dangerousPatterns, Occurs pattern (cs.flatMap Text.upperChar) := by
  rw [HoldsPattern, Text.upper, String.toList_ofList, String.toList_ofList]

theorem holdsPattern_comma {before after : List Char} :
    HoldsPattern (String.ofList (before ++ ',' :: after)) ↔
      HoldsPattern (String.ofList before) ∨ HoldsPattern (String.ofList after) := by
  have comma : Text.upperChar ',' = [','] := by decide
  simp only [holdsPattern_ofList, ← exists_or, ← and_or_left]
  refine exists_congr fun pattern => and_congr_right fun found => ?_
  rw [List.flatMap_append, List.flatMap_cons, comma]
  exact occurs_comma (dangerousPatterns_tight pattern found)

theorem holdsPattern_between {before after : List Char} (front : IsGap before)
    (back : IsGap after) (cs : List Char) :
    HoldsPattern (String.ofList (before ++ cs ++ after)) ↔ HoldsPattern (String.ofList cs) := by
  simp only [holdsPattern_ofList]
  refine exists_congr fun pattern => and_congr_right fun found => ?_
  rw [List.flatMap_append, List.flatMap_append, Text.upper_gap front, Text.upper_gap back]
  exact occurs_between (dangerousPatterns_tight pattern found) front back

theorem holdsPattern_trimChars (cs : List Char) :
    HoldsPattern (String.ofList (Text.trimChars cs)) ↔ HoldsPattern (String.ofList cs) := by
  obtain ⟨before, after, whole, front, back⟩ := Text.trimChars_between cs
  have between := holdsPattern_between front back (Text.trimChars cs)
  rw [← whole] at between
  exact between.symm

theorem not_holdsPattern_nil : ¬ HoldsPattern (String.ofList []) := by
  rw [← isDangerous_iff]
  decide +kernel

/-- A pattern that occurs in texts joined with commas occurs in one of them. -/
theorem holdsPattern_intercalate {gap : List Char} (blank : IsGap gap) (texts : List (List Char)) :
    HoldsPattern (String.ofList ((',' :: gap).intercalate texts)) ↔
      ∃ text ∈ texts, HoldsPattern (String.ofList text) := by
  induction texts with
  | nil =>
      rw [List.intercalate_nil]
      exact iff_of_false not_holdsPattern_nil nofun
  | cons text texts ih =>
      rw [List.exists_mem_cons_iff, ← ih]
      cases texts with
      | nil =>
          rw [List.intercalate_singleton, List.intercalate_nil]
          exact (or_iff_left not_holdsPattern_nil).symm
      | cons text' texts =>
          have later := holdsPattern_between blank (List.forall_mem_nil _)
            ((',' :: gap).intercalate (text' :: texts))
          rw [List.append_nil] at later
          rw [List.intercalate_cons_cons, List.append_assoc, List.cons_append, holdsPattern_comma,
            later]

/-- The first dangerous text is the one that is refused. -/
theorem mapM_screen_find (role : String) (es : List String) :
    es.mapM (screen role) =
      match es.find? isDangerous with
      | some e => refuse (.dangerousText role e)
      | none => .ok es := by
  induction es with
  | nil => rfl
  | cons e es ih =>
      rw [List.mapM_cons, List.find?_cons, ih]
      cases danger : isDangerous e with
      | true => simp only [screen, danger, if_true]; rfl
      | false =>
          simp only [screen, danger, Bool.false_eq_true, if_false]
          cases es.find? isDangerous with
          | none => rfl
          | some later => rfl

theorem screen_expressions {expressions : List String} {role : String} :
    (∃ e, expressions.mapM (screen role) = refuse (.dangerousText role e)) ↔
      ∃ e ∈ expressions, isDangerous e = true := by
  rw [mapM_screen_find, ← List.find?_isSome]
  cases expressions.find? isDangerous with
  | none => exact iff_of_false nofun nofun
  | some e => exact iff_of_true ⟨e, rfl⟩ rfl

/-- A projection that is not malformed is refused by the screen exactly when a dangerous pattern
occurs in the whole of it. -/
theorem split_dangerous_iff
    (formed : split (.text given) ≠ refuse (.malformedProjection given)) :
    (∃ e, split (.text given) = refuse (.dangerousText "projection" e)) ↔ HoldsPattern given := by
  obtain ⟨⟨found, final⟩, scanned⟩ : ∃ scanned, pieces {} given.toList = scanned := ⟨_, rfl⟩
  have joined := pieces_join {} given.toList
  rw [scanned] at joined
  have whole := @holdsPattern_intercalate [] (List.forall_mem_nil _) found
  rw [joined, String.ofList_toList] at whole
  simp only [split, scanned] at formed ⊢
  split at formed
  · exact absurd rfl formed
  · next shape =>
      rw [if_neg shape, screen_expressions, whole]
      simp only [isDangerous_iff, List.mem_map, exists_exists_and_eq_and, holdsPattern_trimChars]

theorem split_harmless {v : Value} {expressions : List String} (h : split v = .ok expressions) :
    ∀ e ∈ expressions, isDangerous e = false := by
  cases v with
  | text s =>
      obtain ⟨-, -, -, shown⟩ := split_ok.mp h
      exact fun e he => (shown e he).2
  | _ => cases h

theorem projection_harmless {columns : List Value} {expressions : List String}
    (h : Call.projection columns = .ok expressions) : ∀ e ∈ expressions, isDangerous e = false := by
  obtain ⟨each, read, h⟩ := ok_bind_iff.mp h
  have harmless := forall_of_mapM (fun _ _ => split_harmless) read
  cases h
  intro e he
  split at he
  · cases he
  · obtain ⟨expressions, hexpressions, inside⟩ := List.mem_flatten.mp he
    exact harmless expressions hexpressions e inside

end Projection

namespace Statement

variable {s : Statement} {k : Compiler} {reserved : List String} {c c' : Collector} {sql : String}

/-- What a SELECT fetches, as it is written when names are not quoted. -/
def projectionText (s : Statement) : String :=
  if s.columns.isEmpty then "*" else ", ".intercalate s.columns

theorem plainText_columnPieces (unquoted : k.quotes = false) (column : String) :
    String.join ((columnPieces column).map (Piece.plainText k)) = column := by
  have plain : k.writeName column = column := by
    rw [Compiler.writeName, unquoted]
    rfl
  rw [columnPieces]
  split
  · rw [List.map_singleton, Piece.plainText, plain, String.join_cons, String.join_nil,
      String.append_empty]
  · rw [List.map_singleton, Piece.plainText, String.join_cons, String.join_nil,
      String.append_empty]

theorem plainText_projectionPieces (unquoted : k.quotes = false) (columns : List String) :
    String.join ((projectionPieces columns).map (Piece.plainText k)) =
      if columns.isEmpty then "*" else ", ".intercalate columns := by
  rw [projectionPieces]
  split
  · rfl
  · rw [Compiler.join_separated, List.map_map]
    refine congrArg (", ".intercalate ·) ?_
    exact (List.map_congr_left fun column _ => plainText_columnPieces unquoted column).trans
      (List.map_id columns)

/-- A SELECT that is written without quoting begins with what it fetches. -/
theorem written_projection (unquoted : k.quotes = false)
    (h : k.writeFrom reserved c (s.selectPieces k.dialect) = .ok (sql, c')) :
    ∃ rest, sql = s.selectWord ++ s.projectionText ++ " FROM " ++ rest := by
  rw [selectPieces_body, List.append_assoc, List.append_assoc] at h
  obtain ⟨head, _, c₁, hhead, hrest, rfl⟩ := Compiler.writeFrom_append_ok.mp h
  obtain ⟨rest, rfl⟩ := Compiler.written_head hrest
  have plain : (.text s.selectWord :: projectionPieces s.columns).all Piece.isPlain = true :=
    projectionPieces_isPlain s.columns
  obtain ⟨rfl, -⟩ := Compiler.writeFrom_plain plain hhead
  refine ⟨rest, ?_⟩
  rw [List.map_cons, String.join_cons, plainText_projectionPieces unquoted, ← String.append_assoc]
  rfl

/-- No accepted call puts a dangerous expression among the columns. -/
theorem harmless_accepted {s' : Statement} {call : Call} (change : call.Accepted s s')
    (h : ∀ column ∈ s.columns, Projection.isDangerous column = false) :
    ∀ column ∈ s'.columns, Projection.isDangerous column = false := by
  cases change with
  | select _ read => exact Projection.projection_harmless read
  | _ => exact h

theorem Built.harmless {allowed : Call → Prop} (built : s.Built allowed) :
    ∀ column ∈ s.columns, Projection.isDangerous column = false := by
  induction built with
  | new => exact List.forall_mem_nil _
  | @call s _ call _ ih =>
      obtain change | left := call.apply_cases s
      · exact harmless_accepted change ih
      · rw [left]
        cases call with
        | rawSql sql params =>
            rw [Call.residue]
            split <;> exact ih
        | _ => exact ih
  | @finish s _ k t ih =>
      obtain ⟨_, _, _, left, -⟩ := t.finish_frame k s
      rw [left]
      exact ih
  | preview _ ih =>
      rw [Builder.previewed]
      split <;> exact ih

theorem Built.projectionText_harmless {allowed : Call → Prop} (built : s.Built allowed) :
    ¬ Projection.HoldsPattern s.projectionText := by
  rw [Statement.projectionText]
  split
  · rw [← Projection.isDangerous_iff]
    decide +kernel
  · have space : Text.IsGap [' '] := List.forall_mem_singleton.mpr (by decide)
    have chars : ", ".intercalate s.columns =
        String.ofList ([',', ' '].intercalate (s.columns.map String.toList)) := by
      apply String.toList_injective
      rw [String.toList_intercalate, String.toList_ofList, String.toList_ofList]
    rw [chars, Projection.holdsPattern_intercalate space]
    rintro ⟨_, inside, holds⟩
    obtain ⟨column, hcolumn, rfl⟩ := List.mem_map.mp inside
    rw [String.ofList_toList, ← Projection.isDangerous_iff, built.harmless column hcolumn] at holds
    cases holds

end Statement

namespace Projection

/-- Screening expression by expression misses nothing. A projection that is not malformed is refused
as dangerous exactly when a dangerous pattern occurs in the whole of it in upper case. And whatever
calls led to a statement, no such pattern occurs in what its SELECT fetches, in upper case and as it
is written without quoting between the first word of the SELECT and its table. -/
theorem screening_misses_nothing :
    (∀ given, split (.text given) ≠ refuse (.malformedProjection given) →
      ((∃ e, split (.text given) = refuse (.dangerousText "projection" e)) ↔
        HoldsPattern given)) ∧
    ∀ (s : Statement) (k : Compiler) (compiled : Compiled), s.Built (fun _ => True) →
      s.operation = some .select → s.isRaw = false → k.quotes = false →
      k.compile s = .ok compiled →
        (∃ rest, compiled.sql = s.selectWord ++ s.projectionText ++ " FROM " ++ rest) ∧
          ¬ HoldsPattern s.projectionText := by
  refine ⟨fun given => split_dangerous_iff, ?_⟩
  intro s k compiled built reads given unquoted h
  refine ⟨?_, built.projectionText_harmless⟩
  obtain ⟨operation, ps, claimed, hps, hwrite⟩ := Compiler.compile_pieces_ok given h
  cases claimed.symm.trans reads
  cases hps
  obtain ⟨last, written, -⟩ := Compiler.write_ok.mp hwrite
  exact Statement.written_projection unquoted written

/-- A dangerous projection, and expressions that are one only without the commas between them. -/
theorem screening_misses_nothing_of_neighbours :
    (∃ e, split (.text "a;\u3000drop b, c") = refuse (.dangerousText "projection" e)) ∧
      HoldsPattern "a;\u3000drop b, c" ∧
      ∃ (s : Statement) (compiled : Compiled), ({} : Compiler).compile s = .ok compiled ∧
        compiled.sql = "SELECT a;, drop b /, * c FROM t" ∧
        ¬ HoldsPattern "a;, drop b /, * c" := by
  obtain ⟨screened, selects⟩ := screening_misses_nothing
  have dangerous : HoldsPattern "a;\u3000drop b, c" := isDangerous_iff.mp (by decide +kernel)
  have formed : split (.text "a;\u3000drop b, c") ≠
      refuse (.malformedProjection "a;\u3000drop b, c") := by
    intro same
    exact absurd (congrArg (Except.mapError Trace.complaint) same) (by decide +kernel)
  refine ⟨(screened _ formed).mpr dangerous, dangerous, ?_⟩
  let calls : List Call := [.table (.text "t"), .select [.text "a;,drop b /,* c "]]
  let s : Statement := calls.foldl (fun s c => (c.apply s).1) {}
  have built : s.Built (fun _ => True) := .call (.call .new trivial) trivial
  have columns : s.columns = ["a;", "drop b /", "* c"] := by decide +kernel
  have shown : s.projectionText = "a;, drop b /, * c" := by
    rw [Statement.projectionText, columns]
    rfl
  have text : (({} : Compiler).compile s).toOption.map Compiled.sql =
      some "SELECT a;, drop b /, * c FROM t" := by decide +kernel
  obtain ⟨compiled, found, sql⟩ := Option.map_eq_some_iff.mp text
  have h := toOption_some.mp found
  obtain ⟨-, harmless⟩ := selects s {} compiled built (by decide +kernel) rfl rfl h
  exact ⟨s, compiled, h, sql, shown ▸ harmless⟩

end Projection
end FluentSql
