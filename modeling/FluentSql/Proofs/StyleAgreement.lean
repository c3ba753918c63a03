import FluentSql.Proofs.FragmentWalk
import FluentSql.Proofs.FreshName
import FluentSql.Proofs.Writing

/-!
The placeholder styles beside each other. Where no fragment brings parameters, the pieces of a
statement have one outline in all styles: text around numbered places, each with its value. The
collector of every style holds the values of the places so far, so a style only decides what stands
in a place and in which container the values are handed over.
-/

namespace FluentSql

open Collector (numberedName)

/-- A text with places: what stands before the first one, and the value of each place with the text
that follows it. -/
structure Outline where
  opening : String
  places : List (Value × String)

namespace Outline

/-- Text in front of everything else. -/
def behind (s : String) (o : Outline) : Outline := { o with opening := s ++ o.opening }

/-- A place in front of everything else. -/
def afterPlace (v : Value) (o : Outline) : Outline := ⟨"", (v, o.opening) :: o.places⟩

/-- The outline of pieces; it does not depend on the style of the compiler. -/
def ofPieces (k : Compiler) : List Piece → Except Error Outline
  | [] => .ok ⟨"", []⟩
  | .text s :: rest | .fragment _ s _ :: rest => (ofPieces k rest).map (behind s)
  | .name s :: rest => (ofPieces k rest).map (behind (k.writeName s))
  | .bound v :: rest => (ofPieces k rest).map (afterPlace v)
  | .halt e :: _ => .error e

def values (o : Outline) : List Value := o.places.map (·.1)

/-- The places filled in, with numbers from the one after `n` on. -/
def filled (style : Style) : Nat → List (Value × String) → String
  | _, [] => ""
  | n, (_, following) :: rest =>
    style.placeholder (numberedName (n + 1)) ++ following ++ filled style (n + 1) rest

/-- The text in a style, with its places numbered from the one after `n` on. -/
def textFrom (style : Style) (n : Nat) (o : Outline) : String :=
  o.opening ++ filled style n o.places

def text (style : Style) (o : Outline) : String := o.textFrom style 0

/-- Values under the names `p1`, `p2` and so on. -/
def numbered (vs : List Value) : List (String × Value) :=
  vs.mapIdx fun i v => (numberedName (i + 1), v)

/-- The parameters in a style: the values in order, as a list or under numbered names. -/
def parameters (style : Style) (o : Outline) : Value :=
  if style.isNamed then Fields.toValue (numbered o.values) else .list o.values

end Outline

namespace Collector

/-- What the collector of a style holds after the given values, when nothing is reserved. -/
def holding (style : Style) (vs : List Value) : Collector :=
  if style.isNamed then { counter := vs.length, named := Outline.numbered vs }
  else { positional := vs }

theorem holding_nil (style : Style) : holding style [] = {} := by
  cases style <;> rfl

theorem numbered_concat (vs : List Value) (v : Value) :
    Outline.numbered (vs ++ [v]) =
      Outline.numbered vs ++ [(numberedName (vs.length + 1), v)] := by
  simp only [Outline.numbered, List.mapIdx_concat]

theorem numberedName_not_in_numbered (vs : List Value) :
    numberedName (vs.length + 1) ∉ Fields.keys (Outline.numbered vs) := by
  intro taken
  obtain ⟨entry, hentry, same⟩ := List.mem_map.mp taken
  obtain ⟨i, hi, rfl⟩ := List.mem_mapIdx.mp hentry
  have number : i + 1 = vs.length + 1 := numberedName_inj.mp same
  omega

/-- Binding a value numbers it after those that are held. -/
theorem bind_holding (style : Style) (vs : List Value) (v : Value) :
    (holding style vs).bind style [] v =
      (style.placeholder (numberedName (vs.length + 1)), holding style (vs ++ [v])) := by
  have next : nextNumber [] { counter := vs.length, named := Outline.numbered vs } =
      vs.length + 1 := by
    rw [nextNumber, List.nil_append]
    exact firstFree_of_free _ (numberedName_not_in_numbered vs) _
  cases style with
  | qmark | format => rfl
  | named | pyformat =>
      simp only [holding, Style.isNamed, if_true, bind, next, numbered_concat,
        List.length_append, List.length_singleton]
      rfl

end Collector

/-- A piece that brings no parameters along. -/
def Piece.IsBare : Piece → Prop
  | .fragment _ _ (some params) => params.isEmpty = true
  | _ => True

namespace Collector

theorem extend_bare (style : Style) (clause : FragmentClause) (c : Collector) {sql : String}
    {params : Option FragmentParams} (bare : (Piece.fragment clause sql params).IsBare) :
    c.extend style clause params = .ok c := by
  cases params with
  | none => rfl
  | some params => exact if_pos bare

end Collector

theorem Piece.isBare_of_isPlain {p : Piece} (plain : p.isPlain = true) : p.IsBare := by
  cases p with
  | text | name | halt => trivial
  | bound | fragment => cases plain

theorem Atom.leafPieces_isBare (field : String) (operator : Operator) (operand : Operand) :
    ∀ p ∈ leafPieces field operator operand, p.IsBare := by
  cases operand with
  | one v =>
      simp only [leafPieces]
      split
      · simp [Piece.IsBare]
      · split <;> simp [Piece.IsBare]
  | list vs =>
      have between : (Piece.text ", ").IsBare := trivial
      have places : ∀ p ∈ Piece.separated ", " (vs.map fun v => [.bound v]), p.IsBare := by
        refine Piece.forall_separated between fun ps hps => ?_
        obtain ⟨v, -, rfl⟩ := List.mem_map.mp hps
        exact List.forall_mem_singleton.mpr trivial
      simp only [leafPieces, List.forall_mem_append, List.forall_mem_cons]
      exact ⟨⟨⟨trivial, trivial, List.forall_mem_nil _⟩, places⟩, trivial, List.forall_mem_nil _⟩
  | range low high => simp [leafPieces, Piece.IsBare]

theorem Part.pieces_isBare {part : Part} (sound : part.IsSound)
    (bare : ∀ params, part.params = some params → params.isEmpty = true) :
    ∀ p ∈ part.pieces, p.IsBare := by
  cases part with
  | plain ps => exact fun p hp => Piece.isBare_of_isPlain (List.all_eq_true.mp sound p hp)
  | leaf field operator operand => exact Atom.leafPieces_isBare field operator operand
  | assignment | inserted => simp [pieces, Piece.IsBare]
  | fragment clause sql params =>
      refine List.forall_mem_singleton.mpr ?_
      cases params with
      | none => trivial
      | some params => exact bare params rfl

namespace Statement

/-- No raw fragment of a statement has parameters. -/
def IsBare (s : Statement) : Prop := ∀ params ∈ s.fragmentParams, params.isEmpty = true

variable {s : Statement} (bare : s.IsBare)
include bare

theorem reservedNames_of_isBare : s.reservedNames = [] := by
  refine List.flatMap_eq_nil_iff.mpr fun params hparams => ?_
  have empty := bare params hparams
  cases params with
  | list items => rfl
  | map entries => rw [FragmentParams.claimedNames, List.isEmpty_iff.mp empty]; rfl

theorem pieces_isBare {parts : List Part} (sound : ∀ part ∈ parts, part.IsSound)
    (within : parts.filterMap Part.params ⊆ s.fragmentParams) :
    ∀ p ∈ parts.flatMap Part.pieces, p.IsBare := by
  intro p hp
  obtain ⟨part, hpart, hp⟩ := List.mem_flatMap.mp hp
  refine Part.pieces_isBare (sound part hpart) (fun params brought => ?_) p hp
  exact bare params (within (List.mem_filterMap.mpr ⟨part, hpart, brought⟩))

theorem piecesFor_isBare {k : Compiler} {operation : Operation} {ps : List Piece}
    (h : s.piecesFor k operation = .ok ps) : ∀ p ∈ ps, p.IsBare := by
  rw [piecesFor_ok h]
  exact pieces_isBare bare (parts_isSound k s operation) (params_parts_subset k s operation)

theorem countPieces_isBare (k : Compiler) : ∀ p ∈ k.countPieces s, p.IsBare := by
  rw [← pieces_countParts]
  exact pieces_isBare bare (countParts_isSound k s) (params_countParts_subset k s)

end Statement

/-- Compilations, one for each style, that fail with the same error or fill the same outline. -/
inductive AgreeInStyles (compiled : Style → Except Error Compiled) : Prop
  | failed (e : Error) (h : ∀ style, compiled style = .error e)
  | filled (o : Outline) (operation table : Option String)
      (h : ∀ style, compiled style = .ok ⟨o.text style, o.parameters style, operation, table⟩)

namespace Compiler

variable (k : Compiler) (style : Style)

/-- What is written in a style is the outline of the pieces, filled in that style. -/
theorem writeFrom_outline {ps : List Piece} (bare : ∀ p ∈ ps, p.IsBare) (vs : List Value) :
    { k with style := style }.writeFrom [] (.holding style vs) ps =
      (Outline.ofPieces k ps).map fun o =>
        (o.textFrom style vs.length, .holding style (vs ++ o.values)) := by
  induction ps generalizing vs with
  | nil => simp [writeFrom, Outline.ofPieces, Outline.textFrom, Outline.filled, Outline.values,
      Except.map]
  | cons p ps ih =>
      obtain ⟨first, rest⟩ := List.forall_mem_cons.mp bare
      -- text in front leaves the places and what is held for them as they are
      have fixed {s : String}
          (written : { k with style := style }.writePiece [] (.holding style vs) p =
            .ok (s, .holding style vs))
          (outline : Outline.ofPieces k (p :: ps) =
            (Outline.ofPieces k ps).map (Outline.behind s)) :
          { k with style := style }.writeFrom [] (.holding style vs) (p :: ps) =
            (Outline.ofPieces k (p :: ps)).map fun o =>
              (o.textFrom style vs.length, .holding style (vs ++ o.values)) := by
        rw [writeFrom, written, outline]
        simp only [bind, Except.bind, ih rest]
        cases Outline.ofPieces k ps with
        | error e => rfl
        | ok o => simp [Except.map, Outline.behind, Outline.textFrom, Outline.values,
            String.append_assoc]
      cases p with
      | text s => exact fixed rfl rfl
      | name s => exact fixed rfl rfl
      | fragment clause sql params =>
          refine fixed ?_ rfl
          rw [writePiece, Collector.extend_bare style clause _ first]
          rfl
      | halt e => rfl
      | bound v =>
          rw [writeFrom, writePiece, Collector.bind_holding, Outline.ofPieces]
          simp only [bind, Except.bind, ih rest]
          cases Outline.ofPieces k ps with
          | error e => rfl
          | ok o => simp [Except.map, Outline.afterPlace, Outline.textFrom, Outline.filled,
              Outline.values, String.append_assoc]

theorem write_outline {ps : List Piece} (bare : ∀ p ∈ ps, p.IsBare) :
    { k with style := style }.write [] ps =
      (Outline.ofPieces k ps).map fun o => (o.text style, o.parameters style) := by
  rw [write, ← Collector.holding_nil style, writeFrom_outline k style bare []]
  cases Outline.ofPieces k ps with
  | error e => rfl
  | ok o =>
      simp only [Except.map, bind, Except.bind, List.nil_append]
      cases style <;> rfl

variable {k}

/-- Pieces without parameters of their own are written in all styles or in none. -/
theorem agree_write {ps : List Piece} (bare : ∀ p ∈ ps, p.IsBare)
    (operation table : Option String) :
    AgreeInStyles fun style => { k with style := style }.write [] ps >>= fun written =>
      .ok ⟨written.1, written.2, operation, table⟩ := by
  cases outline : Outline.ofPieces k ps with
  | error e =>
      refine .failed e fun style => ?_
      rw [write_outline k style bare, outline]
      rfl
  | ok o =>
      refine .filled o operation table fun style => ?_
      rw [write_outline k style bare, outline]
      rfl

variable {s : Statement}

theorem agree_compile (given : s.isRaw = false) (bare : s.IsBare) :
    AgreeInStyles fun style => { k with style := style }.compile s := by
  have text : s.rawSql = none := by simpa [Statement.isRaw] using given
  cases purpose : s.operation with
  | none => exact .failed _ fun style => by simp only [compile, text, purpose]; rfl
  | some operation =>
      have rules (style : Style) : s.piecesFor { k with style := style } operation =
          s.piecesFor k operation := by cases operation <;> rfl
      cases table : s.requireTable with
      | error e =>
          refine .failed e fun style => ?_
          simp only [compile, text, purpose, table]
          rfl
      | ok _ =>
          cases hps : s.piecesFor k operation with
          | error e =>
              refine .failed e fun style => ?_
              simp only [compile, text, purpose, table, rules, hps]
              rfl
          | ok ps =>
              have agree := agree_write (k := k) (Statement.piecesFor_isBare bare hps)
                (some operation.text) s.table
              simp only [compile, text, purpose, table, rules, hps,
                Statement.reservedNames_of_isBare bare]
              exact agree

theorem agree_compileCount (bare : s.IsBare) :
    AgreeInStyles fun style => { k with style := style }.compileCount s := by
  by_cases raw : s.isRaw = true
  · exact .failed _ fun style => by rw [compileCount, if_pos raw]; rfl
  · cases purpose : s.operation.filter (· ≠ .select) with
    | some operation =>
        refine .failed (Refusal.countOperation operation).toError fun style => ?_
        rw [compileCount, if_neg raw, purpose]
        rfl
    | none =>
        have agree := agree_write (k := k) (Statement.countPieces_isBare bare k)
          (some Operation.select.text) s.table
        cases table : s.requireTable with
        | error e =>
            refine .failed e fun style => ?_
            rw [compileCount, if_neg raw, purpose, table]
            rfl
        | ok _ =>
            simp only [compileCount, if_neg raw, purpose, table,
              Statement.reservedNames_of_isBare bare]
            exact agree

/-- A statement whose fragments bring no parameters fails with the same error in all four styles,
or has one text in which the place numbered `i` is written `?`, `%s`, `:pi` or `%(pi)s`; the values
of the places are the list of a positional style, and in a named style stand in the same order under
`p1`, `p2` and so on. -/
theorem placeholder_styles_agree (k : Compiler) {s : Statement} (given : s.isRaw = false)
    (bare : s.IsBare) :
    AgreeInStyles (fun style => { k with style := style }.compile s) ∧
      AgreeInStyles (fun style => { k with style := style }.compileCount s) :=
  ⟨agree_compile given bare, agree_compileCount bare⟩

/-- An UPDATE that binds in its assignments, in a list and in a range, beside fragments without
parameters. -/
def bareUpdate : Statement where
  operation := some .update
  table := some "users"
  values := [("name", .text "?"), ("age", .none)]
  predicates := [.leaf "id" .among (.list [.int 7, .int 8]) .and,
    .group [.raw "seen = '%s'" (some (.map [])) .and,
      .leaf "born" .between (.range (.int 1) (.int 2)) .or,
      .leaf "gone" .isNot (.one .none) .or] .and]

theorem placeholder_styles_agree_of_update :
    bareUpdate.isRaw = false ∧ bareUpdate.IsBare ∧
      ∃ (o : Outline) (operation table : Option String),
        (∀ style, compile { style := style } bareUpdate =
          .ok ⟨o.text style, o.parameters style, operation, table⟩) ∧
        o.text .qmark = "UPDATE users SET name = ?, age = ? WHERE id IN (?, ?) AND " ++
          "(seen = '%s' OR born BETWEEN ? AND ? OR gone IS NOT NULL)" ∧
        o.text .pyformat = "UPDATE users SET name = %(p1)s, age = %(p2)s WHERE " ++
          "id IN (%(p3)s, %(p4)s) AND (seen = '%s' OR born BETWEEN %(p5)s AND %(p6)s " ++
          "OR gone IS NOT NULL)" ∧
        o.values = [.text "?", .none, .int 7, .int 8, .int 1, .int 2] := by
  have bare : bareUpdate.IsBare := List.forall_mem_singleton.mpr rfl
  have marks : (compile {} bareUpdate).toOption.map (·.sql) =
      some ("UPDATE users SET name = ?, age = ? WHERE id IN (?, ?) AND " ++
        "(seen = '%s' OR born BETWEEN ? AND ? OR gone IS NOT NULL)") := by decide +kernel
  have names : (compile { style := .pyformat } bareUpdate).toOption.map (·.sql) =
      some ("UPDATE users SET name = %(p1)s, age = %(p2)s WHERE " ++
        "id IN (%(p3)s, %(p4)s) AND (seen = '%s' OR born BETWEEN %(p5)s AND %(p6)s " ++
        "OR gone IS NOT NULL)") := by decide +kernel
  have values : (compile {} bareUpdate).toOption.map (·.parameters) =
      some (.list [.text "?", .none, .int 7, .int 8, .int 1, .int 2]) := rfl
  refine ⟨rfl, bare, ?_⟩
  obtain ⟨e, failed⟩ | ⟨o, operation, table, filled⟩ :=
    (placeholder_styles_agree {} (s := bareUpdate) rfl bare).1
  · rw [show compile {} bareUpdate = .error e from failed .qmark] at marks
    cases marks
  · rw [show compile {} bareUpdate = _ from filled .qmark] at marks values
    rw [show compile { style := .pyformat } bareUpdate = _ from filled .pyformat] at names
    exact ⟨o, operation, table, filled, Option.some.inj marks, Option.some.inj names,
      Value.list.inj (Option.some.inj values)⟩

end Compiler
end FluentSql
