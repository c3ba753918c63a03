import FluentSql.Proofs.CountedSelect

/-!
The order of the clauses of a SELECT. Its layout is a row of clauses that is the same for all
statements, so the text falls into one stretch for each clause: nothing where nothing was collected,
and otherwise text that begins with the keyword of the clause.
-/

namespace FluentSql

/-- A clause: the keyword that it begins with when there is one, and its parts. -/
structure Clause where
  keyword : String
  parts : List Part

namespace Clause

/-- A clause that is there and has a keyword begins with it. -/
def IsOpened (c : Clause) : Prop :=
  c.parts = [] ∨ c.keyword = "" ∨
    ∃ rest ps parts, c.parts = .plain (.text (c.keyword ++ rest) :: ps) :: parts

/-- The text of a clause: its parts with generated names in their places. -/
structure WrittenAs (k : Compiler) (c : Clause) (text : String) : Prop where
  parts : ∃ written : List NamedPart, written.map (·.part) = c.parts ∧
    (∀ w ∈ written, w.names.length = w.part.places.length) ∧
    text = String.join (written.map (NamedPart.text k))
  absent : c.parts = [] → text = ""
  present : c.parts ≠ [] → ∃ rest, text = c.keyword ++ rest

end Clause

namespace Statement

def selectClause (s : Statement) : Clause where
  keyword := "SELECT "
  parts := [.plain (.text s.selectWord :: projectionPieces s.columns)]

def fromClause (s : Statement) : Clause where
  keyword := " FROM "
  parts := [.plain (.text " FROM " :: tablePieces (s.table.getD ""))]

def joinClause (j : Join) : Clause where
  keyword := " " ++ j.kind.text ++ " JOIN "
  parts := [.plain (joinPieces j)]

/-- Limit and offset have no keyword in common. -/
def pagingClause (dialect : String) (s : Statement) : Clause where
  keyword := ""
  parts :=
    if s.isPaginated then
      [.plain (pagingPieces (Dialect.paging dialect) (!s.ordering.isEmpty) s.limit s.offset)]
    else []

/-- The clauses of a SELECT in the order in which they are written. -/
def clauses (dialect : String) (s : Statement) : List Clause :=
  s.selectClause :: s.fromClause :: s.joins.map joinClause ++
    [⟨" WHERE ", conditionParts "WHERE" s.predicates⟩, ⟨" GROUP BY ", groupingParts s.grouping⟩,
      ⟨" HAVING ", conditionParts "HAVING" s.having⟩, ⟨" ORDER BY ", orderingParts s.ordering⟩,
      s.pagingClause dialect]

/-- A text that falls into the clauses of a SELECT, in their order. -/
def InClauseOrder (k : Compiler) (s : Statement) (sql : String) : Prop :=
  ∃ texts, sql = String.join texts ∧ List.Forall₂ (Clause.WrittenAs k) (s.clauses k.dialect) texts

theorem pieces_pagingClause (dialect : String) (s : Statement) :
    (s.pagingClause dialect).parts.flatMap Part.pieces =
      pagingPieces (Dialect.paging dialect) (!s.ordering.isEmpty) s.limit s.offset := by
  cases paginated : s.isPaginated with
  | true =>
      simp only [pagingClause, paginated, if_true, List.flatMap_cons, List.flatMap_nil,
        List.append_nil, Part.pieces]
  | false =>
      rw [pagingPieces_unpaged paginated, pagingClause, paginated]
      rfl

theorem pieces_clauses (dialect : String) (s : Statement) :
    (s.clauses dialect).flatMap (fun c => c.parts.flatMap Part.pieces) =
      s.selectPieces dialect := by
  simp only [clauses, List.flatMap_append, List.flatMap_cons, List.flatMap_nil, List.flatMap_map,
    pieces_pagingClause, pieces_conditionParts, pieces_groupingParts, pieces_orderingParts,
    selectClause, fromClause, joinClause, Part.pieces, selectPieces, coreSelectPieces, selectWord,
    List.append_assoc, List.cons_append, List.append_nil]

theorem clauses_isSound (dialect : String) (s : Statement) :
    ∀ c ∈ s.clauses dialect, ∀ part ∈ c.parts, part.IsSound := by
  have head {word : String} {ps : List Piece} (plain : ps.all Piece.isPlain = true) :
      ∀ part ∈ [Part.plain (.text word :: ps)], part.IsSound := by
    refine List.forall_mem_singleton.mpr ?_
    rw [Part.IsSound, List.all_cons, plain]
    rfl
  have one {ps : List Piece} (plain : ps.all Piece.isPlain = true) :
      ∀ part ∈ [Part.plain ps], part.IsSound := List.forall_mem_singleton.mpr plain
  intro c hc
  simp only [clauses, List.cons_append, List.mem_cons, List.mem_append, List.mem_map,
    List.mem_nil_iff, or_false] at hc
  obtain rfl | rfl | ⟨j, -, rfl⟩ | rfl | rfl | rfl | rfl | rfl := hc
  · exact head (projectionPieces_isPlain s.columns)
  · exact head (tablePieces_isPlain (s.table.getD ""))
  · exact one (joinPieces_isPlain j)
  · exact conditionParts_isSound _ _
  · exact groupingParts_isSound _
  · exact conditionParts_isSound _ _
  · exact orderingParts_isSound _
  · rw [pagingClause]
    split
    · exact one (pagingPieces_isPlain ..)
    · exact List.forall_mem_nil _

theorem clauses_isOpened (dialect : String) (s : Statement) :
    ∀ c ∈ s.clauses dialect, c.IsOpened := by
  have conditions (keyword : String) (nodes : List Node) :
      (Clause.mk (" " ++ keyword ++ " ") (conditionParts keyword nodes)).IsOpened := by
    simp only [Clause.IsOpened, conditionParts]
    split
    · exact .inl rfl
    · exact .inr (.inr ⟨"", [], _, by rw [String.append_empty]⟩)
  intro c hc
  simp only [clauses, List.cons_append, List.mem_cons, List.mem_append, List.mem_map,
    List.mem_nil_iff, or_false] at hc
  obtain rfl | rfl | ⟨j, -, rfl⟩ | rfl | rfl | rfl | rfl | rfl := hc
  · cases distinct : s.distinct with
    | true => exact .inr (.inr ⟨"DISTINCT ", _, _, by rw [selectClause, selectWord, distinct]; rfl⟩)
    | false => exact .inr (.inr ⟨"", _, _, by rw [selectClause, selectWord, distinct]; rfl⟩)
  · exact .inr (.inr ⟨"", _, _, rfl⟩)
  · exact .inr (.inr ⟨"", _, _, by rw [String.append_empty]; rfl⟩)
  · exact conditions "WHERE" s.predicates
  · simp only [Clause.IsOpened, groupingParts]
    split
    · exact .inl rfl
    · exact .inr (.inr ⟨"", _, _, rfl⟩)
  · exact conditions "HAVING" s.having
  · simp only [Clause.IsOpened, orderingParts]
    split
    · exact .inl rfl
    · exact .inr (.inr ⟨"", _, _, rfl⟩)
  · exact .inr (.inl rfl)

end Statement

namespace Compiler

variable {k : Compiler} {reserved : List String} {c c' : Collector} {sql : String}

/-- A clause that is written has a text of its own. -/
theorem writtenAs_of_write {clause : Clause} (sound : ∀ part ∈ clause.parts, part.IsSound)
    (opened : clause.IsOpened)
    (h : k.writeFrom reserved c (clause.parts.flatMap Part.pieces) = .ok (sql, c')) :
    clause.WrittenAs k sql := by
  obtain ⟨written, hparts, names, rfl, -⟩ := writeFrom_written sound h
  refine ⟨⟨written, hparts, names, rfl⟩, fun absent => ?_, fun present => ?_⟩
  · rw [absent, List.map_eq_nil_iff] at hparts
    rw [hparts]
    rfl
  · obtain absent | unnamed | ⟨rest, ps, parts, first⟩ := opened
    · exact absurd absent present
    · exact ⟨_, by rw [unnamed, String.empty_append]⟩
    · rw [first] at hparts
      obtain ⟨w, ws, rfl, hw, -⟩ := List.map_eq_cons_iff.mp hparts
      refine ⟨rest ++ String.join (ps.map (Piece.plainText k)) ++
        String.join (ws.map (NamedPart.text k)), ?_⟩
      rw [List.map_cons, String.join_cons, NamedPart.text, hw, Part.text, List.map_cons,
        String.join_cons, Piece.plainText, String.append_assoc, String.append_assoc,
        String.append_assoc]

/-- What is written from a row of clauses is a row of their texts. -/
theorem writeFrom_clauses {clauses : List Clause}
    (sound : ∀ clause ∈ clauses, ∀ part ∈ clause.parts, part.IsSound)
    (opened : ∀ clause ∈ clauses, clause.IsOpened)
    (h : k.writeFrom reserved c (clauses.flatMap fun clause => clause.parts.flatMap Part.pieces) =
      .ok (sql, c')) :
    ∃ texts, sql = String.join texts ∧ List.Forall₂ (Clause.WrittenAs k) clauses texts := by
  induction clauses generalizing c sql with
  | nil =>
      obtain ⟨rfl, -⟩ := writeFrom_nil_ok.mp h
      exact ⟨[], rfl, .nil⟩
  | cons clause clauses ih =>
      obtain ⟨firstSound, sound⟩ := List.forall_mem_cons.mp sound
      obtain ⟨firstOpened, opened⟩ := List.forall_mem_cons.mp opened
      obtain ⟨text, tail, c₁, hfirst, hrest, rfl⟩ := writeFrom_append_ok.mp h
      obtain ⟨texts, rfl, written⟩ := ih sound opened hrest
      exact ⟨text :: texts, by rw [String.join_cons],
        .cons (writtenAs_of_write firstSound firstOpened hfirst) written⟩

/-- A SELECT is written clause by clause in the fixed order. -/
theorem inClauseOrder_of_compile {s : Statement} (given : s.isRaw = false) {whole : Compiled}
    (h : k.compile { s with operation := some .select } = .ok whole) :
    s.InClauseOrder k whole.sql := by
  obtain ⟨-, hwrite, -⟩ := (compile_select_ok given).mp h
  obtain ⟨last, hlast, -⟩ := write_ok.mp hwrite
  rw [← Statement.pieces_clauses] at hlast
  exact writeFrom_clauses (s.clauses_isSound k.dialect) (s.clauses_isOpened k.dialect) hlast

end Compiler
end FluentSql
