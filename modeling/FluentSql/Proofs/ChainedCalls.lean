import FluentSql.Builder
import FluentSql.Proofs.Outcome

/-!
What a chained call can do to a statement. An accepted call makes one change, for which its
arguments were read; a refused call leaves its residue, which is the statement itself for most
calls. Everything else about calls is read off these two facts.
-/

namespace FluentSql

namespace Statement

/-- An operation is claimed once, and again only for the same purpose. -/
theorem claim_ok {s s' : Statement} {operation : Operation} :
    s.claim operation = .ok s' ↔
      (s.operation = none ∨ s.operation = some operation) ∧
        s' = { s with operation := some operation } := by
  cases h : s.operation with
  | none => simp [claim, h, eq_comm]
  | some current =>
      by_cases same : current = operation
      · subst same
        have kept : { s with operation := some current } = s := by rw [← h]
        simp [claim, h, kept, eq_comm]
      · simp [claim, h, same, refuse]

/-- An operation that is claimed in the place of another is the same. -/
theorem kept_of_free {s : Statement} {operation current : Operation}
    (free : s.operation = none ∨ s.operation = some operation)
    (held : s.operation = some current) : some operation = some current := by
  obtain none | same := free
  · rw [none] at held
    cases held
  · rw [← same, held]

theorem claim_error {s : Statement} {operation : Operation} {e : Error}
    (h : s.claim operation = .error e) :
    s.operation.isSome = true := by
  cases hs : s.operation with
  | none => simp [claim, hs] at h
  | some current => rfl

end Statement

namespace Call

/-- The columns to group by: sequences stand for their items. -/
def groupingItems (columns : List Value) : List Value :=
  columns.flatMap fun column => (column.sequence?).getD [column]

/-- The change that an accepted call makes, with the checks that its arguments passed. -/
inductive Accepted (s : Statement) : Call → Statement → Prop
  | table {name : Value} {reference : String} (read : TableReference.check name = .ok reference) :
      Accepted s (.table name) { s with table := some reference }
  | select {columns : List Value} {expressions : List String}
      (free : s.operation = none ∨ s.operation = some .select)
      (read : projection columns = .ok expressions) :
      Accepted s (.select columns) { s with operation := some .select, columns := expressions }
  | distinct : Accepted s .distinct { s with distinct := true }
  | join {kind : JoinKind} {target first operator second : Value} {j : Join}
      (read : joinOf kind target first operator second = .ok j) :
      Accepted s (.join kind target first operator second) { s with joins := s.joins ++ [j] }
  | condition {name : String} {args : List Value} {node : Node}
      (read : Condition.ofCall name args = .ok node) :
      Accepted s (.condition name args) { s with predicates := s.predicates ++ [node] }
  | groupBy {columns : List Value} {entries : List Entry} (given : groupingItems columns ≠ [])
      (read : groupingOf (groupingItems columns) = (entries, none)) :
      Accepted s (.groupBy columns) { s with grouping := s.grouping ++ entries }
  | groupByRaw {sql params : Value} {e : Entry} (read : GroupEntry.ofRaw sql params = .ok e) :
      Accepted s (.groupByRaw sql params) { s with grouping := s.grouping ++ [e] }
  | having {connector : Connector} {first second third : Value} {node : Node}
      (read : Condition.resolve first second third connector = .ok node) :
      Accepted s (.having connector first second third) { s with having := s.having ++ [node] }
  | havingRaw {connector : Connector} {sql params : Value} {node : Node}
      (read : Node.ofFragment sql params connector = .ok node) :
      Accepted s (.havingRaw connector sql params) { s with having := s.having ++ [node] }
  | orderBy {field direction : Value} {entries : List OrderEntry}
      (read : orderingOf field direction = .ok entries) :
      Accepted s (.orderBy field direction) { s with ordering := s.ordering ++ entries }
  | orderByRaw {sql params : Value} {e : OrderEntry} (read : OrderEntry.ofRaw sql params = .ok e) :
      Accepted s (.orderByRaw sql params) { s with ordering := s.ordering ++ [e] }
  | limit {count : Value} {n : Nat} (read : natural "limit" count = .ok n) :
      Accepted s (.limit count) { s with limit := some n }
  | offset {count : Value} {n : Nat} (read : natural "offset" count = .ok n) :
      Accepted s (.offset count) { s with offset := some n }
  | paginate {page perPage : Value} {size start : Nat}
      (read : pageOf page perPage = .ok (size, start)) :
      Accepted s (.paginate page perPage) { s with limit := some size, offset := some start }
  | rawSql {sql params : Value} {text : String} {checked : Option Params}
      (read : rawText sql = .ok text) (held : Params.check params = .ok checked) :
      Accepted s (.rawSql sql params) { s with rawSql := some text, rawParams := checked }
  | unconditional : Accepted s .unconditional { s with unconditional := true }

/-- The statement that a refused call leaves. -/
def residue (s : Statement) : Call → Statement
  | .select _ => { s with operation := s.operation.or (some .select) }
  | .groupBy columns =>
      { s with grouping := s.grouping ++ (groupingOf (groupingItems columns)).1 }
  | .rawSql sql _ =>
      match rawText sql with
      | .ok text => { s with rawSql := some text }
      | .error _ => s
  | _ => s

variable {s s' : Statement} {c : Call} {e : Error}

theorem apply_groupBy (columns : List Value) :
    apply s (.groupBy columns) =
      if (groupingItems columns).isEmpty then (s, some Refusal.emptyGrouping.toError)
      else ({ s with grouping := s.grouping ++ (groupingOf (groupingItems columns)).1 },
        (groupingOf (groupingItems columns)).2) := rfl

theorem orKeep_accepted {changed : Except Error Statement} :
    orKeep s changed = (s', none) ↔ changed = .ok s' := by
  cases changed <;> simp [orKeep]

theorem orKeep_refused {changed : Except Error Statement} :
    orKeep s changed = (s', some e) ↔ s' = s ∧ changed = .error e := by
  cases changed <;> simp [orKeep, eq_comm]

/-- A call is accepted when its arguments can be read, and then makes its change. -/
theorem apply_accepted : c.apply s = (s', none) ↔ Accepted s c s' := by
  constructor
  · intro h
    -- most calls read their arguments before they change anything; the others are taken one by one
    cases c with
    | table name | join kind target first operator second | condition name args
    | groupByRaw sql params | having connector first second third | havingRaw connector sql params
    | orderBy field direction | orderByRaw sql params | limit count | offset count =>
        obtain ⟨_, read, h⟩ := ok_bind_iff.mp (orKeep_accepted.mp h)
        cases h
        constructor
        exact read
    | paginate page perPage =>
        obtain ⟨⟨size, start⟩, read, h⟩ := ok_bind_iff.mp (orKeep_accepted.mp h)
        cases h
        exact .paginate read
    | select columns =>
        simp only [apply] at h
        split at h
        · cases h
        · next claimed hclaim =>
            obtain ⟨free, rfl⟩ := Statement.claim_ok.mp hclaim
            obtain ⟨_, read, h⟩ := ok_bind_iff.mp (orKeep_accepted.mp h)
            cases h
            exact .select free read
    | groupBy columns =>
        rw [apply_groupBy] at h
        split at h
        · cases h
        · next given =>
            obtain ⟨rfl, hfault⟩ := Prod.mk.inj h
            exact .groupBy (fun none => given (List.isEmpty_iff.mpr none)) (Prod.ext rfl hfault)
    | rawSql sql params =>
        simp only [apply] at h
        split at h
        · cases h
        · next text read =>
            obtain ⟨_, held, h⟩ := ok_bind_iff.mp (orKeep_accepted.mp h)
            cases h
            exact .rawSql read held
    | distinct =>
        cases h
        exact .distinct
    | unconditional =>
        cases h
        exact .unconditional
  · intro h
    cases h with
    | select free read =>
        simp only [apply, Statement.claim_ok.mpr ⟨free, rfl⟩, read]
        rfl
    | groupBy given read =>
        rw [apply_groupBy, if_neg (fun none => given (List.isEmpty_iff.mp none)), read]
    | rawSql read held =>
        simp only [apply, read, held]
        rfl
    | distinct | unconditional => rfl
    | _ read => simp only [apply, read]; rfl

/-- A refused call leaves its residue. -/
theorem apply_refused (h : c.apply s = (s', some e)) : s' = c.residue s := by
  cases c with
  | table name | join kind target first operator second | condition name args
  | groupByRaw sql params | having connector first second third | havingRaw connector sql params
  | orderBy field direction | orderByRaw sql params | limit count | offset count
  | paginate page perPage => exact (orKeep_refused.mp h).1
  | select columns =>
      simp only [apply] at h
      split at h
      · next hclaim =>
          cases h
          obtain ⟨current, hs⟩ := Option.isSome_iff_exists.mp (Statement.claim_error hclaim)
          rw [residue, hs, Option.some_or, ← hs]
      · next claimed hclaim =>
          obtain ⟨free, rfl⟩ := Statement.claim_ok.mp hclaim
          obtain ⟨rfl, -⟩ := orKeep_refused.mp h
          obtain hs | hs := free <;> rw [residue, hs] <;> rfl
  | groupBy columns =>
      rw [apply_groupBy] at h
      split at h
      · next empty =>
          cases h
          rw [residue, List.isEmpty_iff.mp empty, groupingOf, List.append_nil]
      · exact (Prod.mk.inj h).1.symm
  | rawSql sql params =>
      simp only [apply] at h
      split at h
      · next read =>
          cases h
          rw [residue, read]
      · next text read =>
          obtain ⟨rfl, -⟩ := orKeep_refused.mp h
          rw [residue, read]
  | distinct | unconditional => cases h

/-- A call is accepted, or leaves its residue. -/
theorem apply_cases (c : Call) (s : Statement) :
    c.Accepted s (c.apply s).1 ∨ (c.apply s).1 = c.residue s := by
  cases fault : (c.apply s).2 with
  | none => exact .inl (apply_accepted.mp (Prod.ext rfl fault))
  | some e => exact .inr (apply_refused (Prod.ext rfl fault))

end Call

namespace Builder

variable {b : Builder}

theorem chain_open (given : b.consumed = false) (c : Call) :
    b.chain c = ({ b with statement := (c.apply b.statement).1 }, (c.apply b.statement).2) := by
  simp [chain, given]

theorem chain_consumed (used : b.consumed = true) (c : Call) :
    b.chain c = (b, some Refusal.consumed.toError) := by
  simp [chain, used]

end Builder
end FluentSql
