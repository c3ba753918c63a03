import FluentSql.Proofs.CountedSelect
import FluentSql.Proofs.StructuredCalls

/-!
The names in a statement's text, in the order of the text. What is written for a statement has a
name for each reference to a table, for its alias, and for each column of the clauses that the
operation uses. Where a projection holds stars and names only, everything else that is written is a
word of the language or the place of a bound value.
-/

namespace FluentSql

def Piece.name? : Piece → Option String
  | .name s => some s
  | _ => none

/-- The names that pieces hold. -/
def Piece.names (ps : List Piece) : List String := ps.filterMap Piece.name?

namespace Statement

/-- The names that a reference to a table is written with. -/
def tableNames (reference : String) : List String :=
  match TableReference.split (.text reference) with
  | .ok t => t.name :: t.shortName.toList
  | .error _ => []

def fieldNames (nodes : List Node) : List String := (Node.clauseTokens nodes).filterMap Token.field?

def expressionNames (s : Statement) : List String := s.columns.filter (· ≠ "*")

/-- The names of a SELECT from its table to HAVING. -/
def bodyNames (s : Statement) : List String :=
  tableNames (s.table.getD "") ++
    s.joins.flatMap (fun j => tableNames j.table ++ j.condition.sides) ++
    fieldNames s.predicates ++ s.grouping.filterMap (·.source.column?) ++ fieldNames s.having

def orderingNames (s : Statement) : List String := s.ordering.filterMap (·.source.column?)

/-- The names that a statement is written with for an operation. -/
def namesFor (s : Statement) : Operation → List String
  | .select => s.expressionNames ++ s.bodyNames ++ s.orderingNames
  | .insert => tableNames (s.table.getD "") ++ Fields.keys s.values
  | .update => tableNames (s.table.getD "") ++ Fields.keys s.values ++ fieldNames s.predicates
  | .delete => tableNames (s.table.getD "") ++ fieldNames s.predicates
  | .raw => []

/-- The names that a statement is written with; none without an operation. -/
def writtenNames (s : Statement) : List String := s.operation.elim [] s.namesFor

/-- The names of the counting form: those of the SELECT whose rows are counted, or else those that
follow the projection. -/
def countedNames (s : Statement) : List String :=
  if s.isPaginated then s.namesFor .select
  else if s.isNested then s.expressionNames ++ s.bodyNames
  else s.bodyNames

/-- All expressions are stars or names. -/
def ProjectsNames (s : Statement) : Prop :=
  ∀ column ∈ s.columns, column = "*" ∨ Identifier.isDotted column.toList = true

end Statement

namespace Piece

theorem names_append (ps qs : List Piece) : names (ps ++ qs) = names ps ++ names qs :=
  List.filterMap_append

theorem names_text (t : String) (ps : List Piece) : names (.text t :: ps) = names ps := rfl

theorem names_flatMap {α : Type} (f : α → List Piece) (xs : List α) :
    names (xs.flatMap f) = xs.flatMap fun x => names (f x) :=
  List.filterMap_flatMap

theorem names_separated (separator : String) (pss : List (List Piece)) :
    names (separated separator pss) = pss.flatMap names := by
  induction pss with
  | nil => rfl
  | cons ps pss ih =>
      cases pss with
      | nil => rw [separated, List.flatMap_singleton]
      | cons ps' pss =>
          have between : separated separator (ps :: ps' :: pss) =
              ps ++ (.text separator :: separated separator (ps' :: pss)) := rfl
          rw [between, names_append, names_text, List.flatMap_cons, ← ih]

/-- Items that hold one name each, or none. -/
theorem names_list {α : Type} {f : α → List Piece} {g : α → Option String}
    (h : ∀ x, names (f x) = (g x).toList) (separator : String) (xs : List α) :
    names (separated separator (xs.map f)) = xs.filterMap g := by
  rw [names_separated, List.flatMap_map, List.filterMap_eq_flatMap_toList]
  simp only [h]

/-- Items that hold the key of a field each. -/
theorem names_keys {f : String × Value → List Piece} (h : ∀ field, names (f field) = [field.1])
    (separator : String) (values : List (String × Value)) :
    names (separated separator (values.map f)) = Fields.keys values := by
  rw [names_list (g := fun field => some field.1) h, List.filterMap_eq_map']
  rfl

/-- Items that hold no name. -/
theorem names_nameless {α : Type} {f : α → List Piece} (h : ∀ x, names (f x) = [])
    (separator : String) (xs : List α) : names (separated separator (xs.map f)) = [] := by
  rw [names_separated, List.flatMap_map]
  exact List.flatMap_eq_nil_iff.mpr fun x _ => h x

end Piece

open Piece (names names_append names_text names_flatMap names_separated names_list names_keys
  names_nameless)

theorem Atom.names_leafPieces (field : String) (operator : Operator) (operand : Operand) :
    names (leafPieces field operator operand) = [field] := by
  cases operand with
  | one v =>
      rw [leafPieces]
      split
      · rfl
      · split <;> rfl
  | list vs =>
      rw [leafPieces, names_append, names_append, names_nameless (fun _ => rfl)]
      rfl
  | range low high => rfl

theorem Token.names_pieces (t : Token) : names t.pieces = t.field?.toList := by
  cases t with
  | atom a =>
      cases a with
      | leaf field operator operand => exact Atom.names_leafPieces field operator operand
      | fragment | stray => rfl
  | connector | opening | closing => rfl

namespace Statement

variable (s : Statement)

theorem names_tablePieces (reference : String) :
    names (tablePieces reference) = tableNames reference := by
  rw [tablePieces, tableNames]
  split
  · next read => rw [read]; rfl
  · next read => rw [read]; rfl
  · next read => rw [read]; rfl

theorem names_projectionPieces {s : Statement} (projects : s.ProjectsNames) :
    names (projectionPieces s.columns) = s.expressionNames := by
  have each {columns : List String}
      (projects : ∀ column ∈ columns, column = "*" ∨ Identifier.isDotted column.toList = true) :
      columns.flatMap (fun column => names (columnPieces column)) = columns.filter (· ≠ "*") := by
    induction columns with
    | nil => rfl
    | cons column columns ih =>
        obtain ⟨first, others⟩ := List.forall_mem_cons.mp projects
        rw [List.flatMap_cons, ih others, columnPieces]
        obtain rfl | dotted := first
        · rfl
        · by_cases star : column = "*"
          · rw [star]
            rfl
          · have line : Identifier.isDottedLine column = true := by
              rw [Identifier.isDottedLine, dotted]
              rfl
            rw [if_pos ⟨star, line⟩, List.filter_cons_of_pos (by simpa using star)]
            rfl
  rw [projectionPieces, expressionNames]
  cases columns : s.columns with
  | nil => rfl
  | cons column columns =>
      rw [if_neg (by simp), names_separated, List.flatMap_map, ← each (columns ▸ projects)]

theorem names_joinPieces (j : Join) :
    names (joinPieces j) = tableNames j.table ++ j.condition.sides := by
  rw [joinPieces, names_append, names_text, names_text, names_tablePieces]
  cases j.condition <;> rfl

theorem names_conditionPieces (keyword : String) (nodes : List Node) :
    names (conditionPieces keyword nodes) = fieldNames nodes := by
  rw [conditionPieces, fieldNames]
  cases nodes with
  | nil => rfl
  | cons node nodes =>
      have line (tokens : List Token) :
          names (tokens.flatMap Token.pieces) = tokens.filterMap Token.field? := by
        rw [names_flatMap, List.filterMap_eq_flatMap_toList]
        simp only [Token.names_pieces]
      rw [if_neg (by simp), names_text, line]

theorem names_groupingPieces (grouping : List Entry) :
    names (groupingPieces grouping) = grouping.filterMap (·.source.column?) := by
  have entry (e : Entry) : names (groupEntryPieces e) = e.source.column?.toList := by
    rw [groupEntryPieces]
    cases e.source <;> rfl
  rw [groupingPieces, ← names_list entry ", "]
  cases grouping <;> rfl

theorem names_orderingPieces : names (orderingPieces s.ordering) = s.orderingNames := by
  have entry (e : OrderEntry) : names (orderEntryPieces e) = e.source.column?.toList := by
    rw [orderEntryPieces]
    cases e.source <;> rfl
  rw [orderingPieces, orderingNames, ← names_list entry ", "]
  cases s.ordering <;> rfl

theorem names_pagingPieces (paging : Dialect.Paging) (ordered : Bool) (limit offset : Option Nat) :
    names (pagingPieces paging ordered limit offset) = [] := by
  refine pagingPieces_induction (P := fun ps => names ps = []) rfl (fun h h' => ?_)
    (fun keyword _ n _ => ?_) (fun _ _ => rfl) (fun _ _ => rfl) ordered
  · rw [names_append, h, h']
    rfl
  · rw [numberPieces]
    split <;> rfl

/-- The table, the joins and the clauses up to HAVING. -/
def bodyPieces (s : Statement) : List Piece :=
  .text " FROM " :: tablePieces (s.table.getD "") ++ s.joins.flatMap joinPieces ++
    conditionPieces "WHERE" s.predicates ++ groupingPieces s.grouping ++
    conditionPieces "HAVING" s.having

theorem selectPieces_eq (dialect : String) : s.selectPieces dialect =
    .text s.selectWord :: (projectionPieces s.columns ++ s.bodyPieces ++
      orderingPieces s.ordering ++
        pagingPieces (Dialect.paging dialect) (!s.ordering.isEmpty) s.limit s.offset) := by
  simp only [selectPieces, coreSelectPieces, bodyPieces, selectWord, List.append_assoc,
    List.cons_append]

theorem names_bodyPieces : names s.bodyPieces = s.bodyNames := by
  simp only [bodyPieces, bodyNames, List.cons_append, names_text, names_append, names_flatMap,
    names_tablePieces, names_joinPieces, names_conditionPieces, names_groupingPieces]

theorem names_selectPieces {s : Statement} (projects : s.ProjectsNames) (dialect : String) :
    names (s.selectPieces dialect) = s.namesFor .select := by
  rw [selectPieces_eq, names_text, names_append, names_append, names_append, names_pagingPieces,
    List.append_nil, names_projectionPieces projects, names_bodyPieces, names_orderingPieces,
    namesFor]

theorem names_insertPieces : names s.insertPieces = s.namesFor .insert := by
  simp only [insertPieces, List.cons_append, names_text, names_append, names_tablePieces]
  rw [names_keys fun _ => rfl, names_nameless fun _ => rfl, List.append_nil, names,
    List.filterMap_nil, List.append_nil, namesFor]

theorem names_updatePieces : names s.updatePieces = s.namesFor .update := by
  simp only [updatePieces, List.cons_append, names_text, names_append, names_tablePieces,
    names_conditionPieces]
  rw [names_keys fun _ => rfl, namesFor]

theorem names_deletePieces : names s.deletePieces = s.namesFor .delete := by
  rw [deletePieces, names_append, names_text, names_tablePieces, names_conditionPieces, namesFor]

/-- Whatever a statement is compiled for, its pieces hold the names of that operation in order. -/
theorem names_piecesFor {s : Statement} (projects : s.ProjectsNames) {k : Compiler}
    {operation : Operation} {ps : List Piece} (h : s.piecesFor k operation = .ok ps) :
    names ps = s.namesFor operation := by
  obtain ⟨rfl, rfl⟩ | ⟨rfl, rfl⟩ | ⟨rfl, rfl⟩ | ⟨rfl, rfl⟩ := piecesFor_cases h
  · exact names_selectPieces projects k.dialect
  · exact s.names_insertPieces
  · exact s.names_updatePieces
  · exact s.names_deletePieces

theorem projectsNames_of_accepted {s s' : Statement} {c : Call} (hc : c.isStructured = true)
    (h : s.ProjectsNames) (accepted : c.Accepted s s') : s'.ProjectsNames := by
  cases accepted with
  | select free read => exact Call.projection_names hc read
  | _ => exact h

theorem Built.projectsNames {s : Statement} (built : s.Built (·.isStructured = true)) :
    s.ProjectsNames := by
  induction built with
  | new => exact List.forall_mem_nil _
  | @call s _ c hc ih =>
      obtain accepted | left := c.apply_cases s
      · exact projectsNames_of_accepted hc ih accepted
      · rw [left, ProjectsNames, (residue_of_structured hc).1]
        exact ih
  | @finish s _ k t ih =>
      obtain ⟨_, _, _, left, -⟩ := t.finish_frame k s
      rw [left]
      exact ih
  | preview _ ih =>
      rw [Builder.previewed]
      split
      · exact ih
      · exact ih

end Statement

/-- A word of the language, a name, the place of a value, or a refusal. -/
def Piece.IsOwn : Piece → Prop
  | .text t => Word t
  | .fragment .. => False
  | .name _ | .bound _ | .halt _ => True

namespace Statement

variable {s : Statement}

theorem projectionPieces_own (projects : s.ProjectsNames) :
    ∀ p ∈ projectionPieces s.columns, p.IsOwn := by
  have star : (Piece.text "*").IsOwn := .fixed (by decide)
  have comma : (Piece.text ", ").IsOwn := .fixed (by decide)
  rw [projectionPieces]
  split
  · exact List.forall_mem_singleton.mpr star
  · refine Piece.forall_separated comma fun ps hps => ?_
    obtain ⟨column, hcolumn, rfl⟩ := List.mem_map.mp hps
    rw [columnPieces]
    split
    · exact List.forall_mem_singleton.mpr trivial
    · next other =>
        obtain rfl | dotted := projects column hcolumn
        · exact List.forall_mem_singleton.mpr star
        · have line : Identifier.isDottedLine column = true := by
            rw [Identifier.isDottedLine, dotted]
            rfl
          have same : column = "*" := by_contra fun named => other ⟨named, line⟩
          rw [same]
          exact List.forall_mem_singleton.mpr star

/-- Without expressions and raw texts, every piece is one of the language's own. -/
theorem own_of_origin (vetted : s.Vetted False) (bare : s.columns = []) {p : Piece}
    (origin : s.Origin p) : p.IsOwn := by
  cases origin with
  | word word => exact word
  | expression hcolumn =>
      rw [bare] at hcolumn
      cases hcolumn
  | condition raw | fragment raw => exact (vetted.rawTexts_admitted _ raw).elim
  | name | bound | halt => trivial

variable (vetted : s.Vetted False) (projects : s.ProjectsNames)
include vetted

/-- The expressions of a statement have no part in what its other clauses are written with. -/
theorem own_of_bare_origins {ps : List Piece}
    (origins : ({ s with columns := [] } : Statement).Origins ps) : ∀ p ∈ ps, p.IsOwn :=
  fun p hp => own_of_origin (s := { s with columns := [] }) { vetted with } rfl (origins p hp)

theorem bodyPieces_own : ∀ p ∈ s.bodyPieces, p.IsOwn := by
  refine fun p hp => own_of_bare_origins vetted
    (({ s with columns := [] } : Statement).origins_select "") p ?_
  rw [selectPieces_eq]
  refine List.mem_cons_of_mem _ (List.mem_append_left _ (List.mem_append_left _
    (List.mem_append_right _ hp)))

include projects

theorem selectPieces_own (dialect : String) : ∀ p ∈ s.selectPieces dialect, p.IsOwn := by
  have rest := own_of_bare_origins vetted
    (({ s with columns := [] } : Statement).origins_select dialect)
  rw [selectPieces_eq] at rest ⊢
  obtain ⟨word, rest⟩ := List.forall_mem_cons.mp rest
  simp only [List.forall_mem_append] at rest
  obtain ⟨⟨⟨_, body⟩, ordering⟩, paging⟩ := rest
  simp only [List.forall_mem_cons, List.forall_mem_append]
  exact ⟨word, ⟨⟨projectionPieces_own projects, body⟩, ordering⟩, paging⟩

theorem piecesFor_own {k : Compiler} {operation : Operation} {ps : List Piece}
    (h : s.piecesFor k operation = .ok ps) : ∀ p ∈ ps, p.IsOwn := by
  obtain ⟨-, rfl⟩ | ⟨-, rfl⟩ | ⟨-, rfl⟩ | ⟨-, rfl⟩ := piecesFor_cases h
  · exact selectPieces_own vetted projects k.dialect
  · exact own_of_bare_origins vetted (origins_insert _)
  · exact own_of_bare_origins vetted (origins_update _)
  · exact own_of_bare_origins vetted (origins_delete _)

end Statement
end FluentSql
