import FluentSql.Proofs.BuilderHistory
import FluentSql.Proofs.VisibleConditions

/-!
Writes that reach a database. Only a statement without clauses that it cannot use is written, and an
UPDATE or a DELETE shows all conditions that its builder collected, or its builder was told that
none is wanted. This holds after every sequence of steps, since a builder holds what its accepted
calls put there and nothing else.
-/

namespace FluentSql

/-- The text holds the conditions of a clause, and they are not written as nothing. -/
def Compiler.ShowsConditions (k : Compiler) (nodes : List Node) (sql : String) : Prop :=
  ∃ head condition reserved c c', sql = head ++ " WHERE " ++ condition ∧ condition ≠ "" ∧
    k.writeFrom reserved c ((Node.clauseTokens nodes).flatMap Token.pieces) = .ok (condition, c')

/-- Nothing was collected that a write cannot use. -/
structure Statement.Bare (s : Statement) : Prop where
  columns : s.columns = []
  distinct : s.distinct = false
  joins : s.joins = []
  grouping : s.grouping = []
  having : s.having = []
  ordering : s.ordering = []
  paginated : s.isPaginated = false

/-- The operation writes. -/
def Operation.writes : Operation → Bool
  | .insert | .update | .delete => true
  | .select | .raw => false

/-- The calls that a write can use. -/
def Call.suitsWrites : Call → Bool
  | .table _ | .condition .. | .unconditional => true
  | _ => false

namespace Statement

variable {k : Compiler} {s : Statement} {operation : Operation} {ps : List Piece}

theorem clauses_allowed {allowed : List String} {u : Unit}
    (h : s.rejectClauses operation allowed = .ok u) :
    ∀ clause ∈ s.usedClauses, clause ∈ allowed := by
  simp only [rejectClauses] at h
  split at h
  · next none =>
      intro clause used
      simpa using List.filter_eq_nil_iff.mp (List.isEmpty_iff.mp none) clause used
  · cases h

theorem bare_of_clauses (h : ∀ clause ∈ s.usedClauses, clause ∈ ["where"]) : s.Bare := by
  simp [usedClauses, or_imp, forall_and] at h
  obtain ⟨columns, distinct, joins, grouping, having', ordering, paginated⟩ := h
  exact ⟨columns, distinct, joins, grouping, having', ordering, paginated⟩

theorem predicates_of_clauses (h : ∀ clause ∈ s.usedClauses, clause ∈ []) : s.predicates = [] := by
  by_contra given
  exact List.not_mem_nil (h "where" (by simp [usedClauses, given]))

theorem guardWrite_ok {allowed : Bool} {u : Unit}
    (h : s.guardWrite operation allowed = .ok u) (none : s.predicates = []) :
    s.unconditional = true ∨ allowed = true := by
  simp only [guardWrite, none] at h
  split at h
  · next given => simpa using given
  · cases h

theorem piecesFor_insert (h : s.piecesFor k .insert = .ok ps) :
    s.Bare ∧ s.predicates = [] ∧ ps = s.insertPieces := by
  obtain ⟨_, rejected, h⟩ := ok_bind_iff.mp h
  obtain ⟨_, -, h⟩ := ok_bind_iff.mp h
  cases h
  have none := clauses_allowed rejected
  refine ⟨bare_of_clauses fun clause used => ?_, predicates_of_clauses none, rfl⟩
  exact absurd (none clause used) List.not_mem_nil

/-- What a statement is once it can be updated or deleted by. -/
structure Guarded (k : Compiler) (s : Statement) : Prop where
  bare : s.Bare
  consent : s.predicates = [] → s.unconditional = true ∨ k.allowUnconditionalWrites.truthy = true

theorem piecesFor_update (h : s.piecesFor k .update = .ok ps) :
    s.Guarded k ∧ ps = s.updatePieces := by
  obtain ⟨_, rejected, h⟩ := ok_bind_iff.mp h
  obtain ⟨_, -, h⟩ := ok_bind_iff.mp h
  obtain ⟨_, guarded, h⟩ := ok_bind_iff.mp h
  cases h
  exact ⟨⟨bare_of_clauses (clauses_allowed rejected), guardWrite_ok guarded⟩, rfl⟩

theorem piecesFor_delete (h : s.piecesFor k .delete = .ok ps) :
    s.Guarded k ∧ ps = s.deletePieces := by
  obtain ⟨_, rejected, h⟩ := ok_bind_iff.mp h
  obtain ⟨_, guarded, h⟩ := ok_bind_iff.mp h
  cases h
  exact ⟨⟨bare_of_clauses (clauses_allowed rejected), guardWrite_ok guarded⟩, rfl⟩

end Statement

namespace Compiler

variable {k : Compiler} {reserved : List String} {c c' : Collector} {sql : String}

theorem written_head {head : String} {ps : List Piece}
    (h : k.writeFrom reserved c (.text head :: ps) = .ok (sql, c')) :
    ∃ rest, sql = head ++ rest := by
  obtain ⟨_, rest, _, hp, -, rfl⟩ := writeFrom_cons_ok.mp h
  cases hp
  exact ⟨rest, rfl⟩

theorem written_conditions {ps : List Piece} {nodes : List Node} (given : nodes ≠ [])
    (asked : ∀ node ∈ nodes, node.Asked True)
    (h : k.writeFrom reserved c (ps ++ Statement.conditionPieces "WHERE" nodes) = .ok (sql, c')) :
    k.ShowsConditions nodes sql := by
  obtain ⟨head, tail, c₁, -, htail, rfl⟩ := writeFrom_append_ok.mp h
  rw [Statement.conditionPieces, List.isEmpty_eq_false_iff.mpr given] at htail
  obtain ⟨_, condition, c₂, hp, hcondition, rfl⟩ := writeFrom_cons_ok.mp htail
  cases hp
  exact ⟨head, condition, reserved, c₁, c', by rw [← String.append_assoc]; rfl,
    written_conditions_ne_empty given asked hcondition, hcondition⟩

theorem written_select {dialect : String} {s : Statement}
    (h : k.writeFrom reserved c (s.selectPieces dialect) = .ok (sql, c')) :
    ∃ rest, sql = "SELECT " ++ rest := by
  obtain ⟨rest, rfl⟩ := written_head h
  split
  · exact ⟨"DISTINCT " ++ rest, by rw [← String.append_assoc]; rfl⟩
  · exact ⟨rest, rfl⟩

/-- What a statement compiles to begins with the word of its operation. -/
theorem compile_head {s : Statement} {compiled : Compiled} {operation : Operation}
    (given : s.isRaw = false) (held : s.operation = some operation)
    (h : k.compile s = .ok compiled) : ∃ rest, compiled.sql = operation.text ++ " " ++ rest := by
  obtain ⟨operation', ps, held', hps, hwrite⟩ := compile_pieces_ok given h
  obtain rfl : operation' = operation := Option.some.inj (held'.symm.trans held)
  obtain ⟨last, hwrite, -⟩ := write_ok.mp hwrite
  cases operation' with
  | select =>
      cases hps
      exact written_select hwrite
  | insert =>
      obtain ⟨-, -, rfl⟩ := Statement.piecesFor_insert hps
      obtain ⟨rest, hrest⟩ := written_head hwrite
      exact ⟨"INTO " ++ rest, by rw [hrest, ← String.append_assoc]; rfl⟩
  | update =>
      obtain ⟨-, rfl⟩ := Statement.piecesFor_update hps
      exact written_head hwrite
  | delete =>
      obtain ⟨-, rfl⟩ := Statement.piecesFor_delete hps
      obtain ⟨rest, hrest⟩ := written_head hwrite
      exact ⟨"FROM " ++ rest, by rw [hrest, ← String.append_assoc]; rfl⟩
  | raw => cases hps

theorem compileCount_head {s : Statement} {compiled : Compiled}
    (h : k.compileCount s = .ok compiled) : ∃ rest, compiled.sql = "SELECT " ++ rest := by
  obtain ⟨last, hwrite, -⟩ := write_ok.mp (compileCount_ok h)
  rw [Statement.pieces_countParts, countPieces] at hwrite
  split at hwrite
  · obtain ⟨rest, hrest⟩ := written_head hwrite
    exact ⟨"COUNT(*) AS " ++ countColumn ++ " FROM (" ++ rest, by
      rw [hrest, ← String.append_assoc, ← String.append_assoc, ← String.append_assoc]
      rfl⟩
  · exact written_select hwrite

/-- An UPDATE or a DELETE that compiles is guarded, and shows its conditions if it has any. -/
theorem compile_guarded {s : Statement} {compiled : Compiled}
    (asked : ∀ node ∈ s.predicates, node.Asked True) (given : s.isRaw = false)
    (held : s.operation = some .update ∨ s.operation = some .delete)
    (h : k.compile s = .ok compiled) :
    s.Guarded k ∧ (s.predicates ≠ [] → k.ShowsConditions s.predicates compiled.sql) := by
  obtain ⟨operation, ps, held', hps, hwrite⟩ := compile_pieces_ok given h
  obtain ⟨last, hwrite, -⟩ := write_ok.mp hwrite
  rw [held', Option.some_inj, Option.some_inj] at held
  obtain rfl | rfl := held
  · obtain ⟨guarded, rfl⟩ := Statement.piecesFor_update hps
    exact ⟨guarded, fun some => written_conditions some asked hwrite⟩
  · obtain ⟨guarded, rfl⟩ := Statement.piecesFor_delete hps
    exact ⟨guarded, fun some => written_conditions some asked hwrite⟩

theorem compile_insert {s : Statement} {compiled : Compiled} (given : s.isRaw = false)
    (held : s.operation = some .insert) (h : k.compile s = .ok compiled) :
    s.Bare ∧ s.predicates = [] := by
  obtain ⟨operation, ps, held', hps, -⟩ := compile_pieces_ok given h
  obtain rfl : operation = .insert := Option.some.inj (held'.symm.trans held)
  obtain ⟨bare, none, -⟩ := Statement.piecesFor_insert hps
  exact ⟨bare, none⟩

end Compiler

/-- What an order of a terminal call on a statement that is not raw holds: it begins with the word
of its operation, a write has no stray clause, and an UPDATE or a DELETE is guarded. -/
structure Terminal.Safe (k : Compiler) (s : Statement) (sql : String) (t : Terminal) : Prop where
  head : ∃ rest, sql = t.operation.text ++ " " ++ rest
  bare : t.operation.writes = true → s.Bare
  insert : t.operation = .insert → s.predicates = []
  guarded : t.operation = .update ∨ t.operation = .delete →
    (s.predicates ≠ [] → k.ShowsConditions s.predicates sql) ∧
      (s.predicates = [] →
        s.unconditional = true ∨ k.allowUnconditionalWrites.truthy = true)

namespace Terminal

variable {k : Compiler} {s s' : Statement} {t : Terminal} {o : Order}

theorem finish_safe (asked : ∀ node ∈ s.predicates, node.Asked True) (given : s.isRaw = false)
    (h : t.finish k s = (s', .ok o)) : t.Safe k s' o.compiled.sql := by
  obtain ⟨raw, held, compiled⟩ := finish_ok given h
  have asked' : ∀ node ∈ s'.predicates, node.Asked True := by
    obtain ⟨_, _, _, left, -⟩ := t.finish_frame k s
    rw [h] at left
    rw [show s' = _ from left]
    exact asked
  by_cases counts : t.isCount = true
  · have select : t.operation = .select := by
      cases t with
      | count => rfl
      | _ => cases counts
    rw [if_pos counts] at compiled
    exact {
      head := by rw [select]; exact Compiler.compileCount_head compiled
      bare := fun other => by rw [select] at other; cases other
      insert := fun other => by rw [select] at other; cases other
      guarded := fun other => by rw [select] at other; exact other.elim nofun nofun }
  · rw [if_neg counts] at compiled
    have guarded (writes : t.operation = .update ∨ t.operation = .delete) :=
      Compiler.compile_guarded asked' raw (by rwa [held, Option.some_inj, Option.some_inj]) compiled
    have inserted (inserts : t.operation = .insert) :=
      Compiler.compile_insert raw (by rw [held, inserts]) compiled
    refine {
      head := Compiler.compile_head raw held compiled
      bare := ?_
      insert := fun inserts => (inserted inserts).2
      guarded := fun writes => ⟨(guarded writes).2, (guarded writes).1.consent⟩ }
    intro writes
    cases operation : t.operation with
    | insert => exact (inserted operation).1
    | update => exact (guarded (.inl operation)).1.bare
    | delete => exact (guarded (.inr operation)).1.bare
    | select | raw => rw [operation] at writes; cases writes

theorem bare_of_finish (h : (t.finish k s).1.Bare) : s.Bare := by
  have paginated : s.isPaginated = false := by
    by_contra given
    have later := (s.stays_finish k t).paginated (by simpa using given)
    rw [h.paginated] at later
    cases later
  obtain ⟨_, _, _, left, -⟩ := t.finish_frame k s
  rw [left] at h
  exact ⟨h.columns, h.distinct, h.joins, h.grouping, h.having, h.ordering, paginated⟩

end Terminal

/-- The calls that a bare statement has seen are those that a write can use. -/
theorem Call.Marks.suitsWrites {c : Call} {s : Statement} (h : c.Marks s) (bare : s.Bare)
    (given : s.isRaw = false) (other : s.operation ≠ some .select) : c.suitsWrites = true := by
  cases c with
  | table | condition | unconditional => rfl
  | select => exact absurd h other
  | distinct => exact absurd h (by rw [Marks, bare.distinct]; decide)
  | join => exact absurd bare.joins h
  | groupBy | groupByRaw => exact absurd bare.grouping h
  | having | havingRaw => exact absurd bare.having h
  | orderBy | orderByRaw => exact absurd bare.ordering h
  | limit | offset | paginate => exact absurd h (by rw [Marks, bare.paginated]; decide)
  | rawSql => exact absurd h (by rw [Marks, given]; decide)

namespace Session

/-- Every text that a builder hands over, after any steps, is that of its terminal call. A write had
no call that it cannot use, an INSERT has no condition, and an UPDATE or a DELETE shows all the
conditions that were asked for; if there is none, the builder or the compiler was told so. -/
theorem writes_are_guarded (s : Session) (name : String) (new : s.builderOrNew name = {})
    (steps : List (String × Action)) (t : Terminal) {sql : String} {parameters : Value}
    (given : ((s.run steps).1.builderOrNew name).statement.isRaw = false)
    (handed : .exec sql parameters ∈ ((s.run steps).1.step name (.finish t)).2.events) :
    let calls := acceptedCalls name (s.trace steps)
    let conditions := calls.flatMap Call.conditions
    (∃ rest, sql = t.operation.text ++ " " ++ rest) ∧
      (t.operation.writes = true →
        ((s.run steps).1.builderOrNew name).statement.Bare ∧
          ∀ c ∈ calls, c.suitsWrites = true) ∧
      (t.operation = .insert → conditions = []) ∧
      (t.operation = .update ∨ t.operation = .delete →
        (conditions ≠ [] → s.compiler.ShowsConditions conditions sql) ∧
          (conditions = [] →
            .unconditional ∈ calls ∨ s.compiler.allowUnconditionalWrites.truthy = true)) := by
  intro calls conditions
  have collects := s.collects_run name new steps
  obtain ⟨b, o, finished, rfl, -⟩ := (s.run steps).1.finish_handed name handed
  rw [(s.run_keeps steps).1] at finished
  obtain ⟨s', ordered⟩ := Builder.finish_ok finished
  have safe := Terminal.finish_safe collects.asked given ordered
  obtain ⟨raw, operation, -⟩ := Terminal.finish_ok given ordered
  have left : s' = (t.finish s.compiler
      ((s.run steps).1.builderOrNew name).statement).1 := by rw [ordered]
  have collects' : s'.Collects calls := left ▸ collects.finish s.compiler t
  have predicates : s'.predicates = conditions := collects'.predicates
  rw [← predicates]
  refine ⟨safe.head, fun writes => ⟨?_, fun c hc => ?_⟩, safe.insert, fun writes => ?_⟩
  · exact Terminal.bare_of_finish (left ▸ safe.bare writes)
  · refine (collects'.marks c hc).suitsWrites (safe.bare writes) raw fun select => ?_
    rw [Option.some.inj (operation.symm.trans select)] at writes
    cases writes
  · obtain ⟨shows, consent⟩ := safe.guarded writes
    exact ⟨shows, fun none => (consent none).imp_left collects'.unconditional.mp⟩

/-- A table, a condition that is refused and a condition that a callback asks for. -/
def deletingSteps : List (String × Action) :=
  [("q", .chain (.table (.text "t"))),
    ("q", .chain (.condition "where" [.text "1x", .int 1])),
    ("q", .chain (.condition "where" [.callback
      [("where", [.text "a", .int 1]), ("or_where", [.text "b", .int 2])]]))]

/-- The refused condition is neither collected nor written. -/
theorem writes_are_guarded_of_delete :
    let s : Session := { compiler := {}, provider := some ⟨.engine, true⟩ }
    let calls := acceptedCalls "q" (s.trace deletingSteps)
    s.builderOrNew "q" = {} ∧
      ((s.run deletingSteps).1.builderOrNew "q").statement.isRaw = false ∧
      calls.length = 2 ∧
      ∃ parameters, .exec "DELETE FROM t WHERE a = ? OR b = ?" parameters ∈
          ((s.run deletingSteps).1.step "q" (.finish .delete)).2.events ∧
        s.compiler.ShowsConditions (calls.flatMap Call.conditions)
          "DELETE FROM t WHERE a = ? OR b = ?" := by
  intro s calls
  have raw : ((s.run deletingSteps).1.builderOrNew "q").statement.isRaw = false := by
    decide +kernel
  have some : calls.flatMap Call.conditions ≠ [] :=
    List.isEmpty_eq_false_iff.mp (by decide +kernel)
  have written : Option.some "DELETE FROM t WHERE a = ? OR b = ?" ∈
      ((s.run deletingSteps).1.step "q" (.finish .delete)).2.events.map Event.sql? := by
    decide +kernel
  obtain ⟨parameters, handed⟩ := Event.exec_of_sql written
  obtain ⟨-, -, -, guarded⟩ := s.writes_are_guarded "q" rfl deletingSteps .delete raw handed
  exact ⟨rfl, raw, by decide +kernel, parameters, handed, (guarded (.inr rfl)).1 some⟩

end Session
end FluentSql
