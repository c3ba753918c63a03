import FluentSql.Proofs.AskedNodes
import FluentSql.Proofs.SessionSteps
import FluentSql.Proofs.TerminalCalls

/-!
The history of a builder. The calls that a builder accepted since it was made are read off the steps
of a session and their reports. Its predicates are those of the accepted calls, in order; it is
unconditional when one of these calls said so; and each of them has left its mark. Refused calls,
previews and terminal calls change nothing about this.
-/

namespace FluentSql

/-- What was collected in a statement is still there in a later one. -/
structure Statement.Stays (s s' : Statement) : Prop where
  operation : ∀ current, s.operation = some current → s'.operation = some current
  distinct : s.distinct = true → s'.distinct = true
  joins : s.joins <+: s'.joins
  grouping : s.grouping <+: s'.grouping
  having : s.having <+: s'.having
  ordering : s.ordering <+: s'.ordering
  paginated : s.isPaginated = true → s'.isPaginated = true
  raw : s.isRaw = true → s'.isRaw = true

namespace Statement

variable {s s' : Statement}

@[refl]
theorem Stays.refl (s : Statement) : s.Stays s where
  operation := fun _ h => h
  distinct := id
  joins := List.prefix_rfl
  grouping := List.prefix_rfl
  having := List.prefix_rfl
  ordering := List.prefix_rfl
  paginated := id
  raw := id

theorem stays_of_accepted {c : Call} (h : c.Accepted s s') : s.Stays s' := by
  cases h with
  | table | condition | unconditional => exact { Stays.refl s with }
  | select free => exact { Stays.refl s with operation := fun _ held => kept_of_free free held }
  | distinct => exact { Stays.refl s with distinct := fun _ => rfl }
  | join => exact { Stays.refl s with joins := List.prefix_append .. }
  | groupBy | groupByRaw => exact { Stays.refl s with grouping := List.prefix_append .. }
  | having | havingRaw => exact { Stays.refl s with having := List.prefix_append .. }
  | orderBy | orderByRaw => exact { Stays.refl s with ordering := List.prefix_append .. }
  | limit | paginate => exact { Stays.refl s with paginated := fun _ => rfl }
  | offset => exact { Stays.refl s with paginated := fun _ => Bool.or_true _ }
  | rawSql => exact { Stays.refl s with raw := fun _ => rfl }

theorem stays_residue (s : Statement) (c : Call) : s.Stays (c.residue s) := by
  cases c with
  | select columns =>
      refine { Stays.refl s with operation := fun current held => ?_ }
      rw [Call.residue, held, Option.some_or]
  | groupBy columns => exact { Stays.refl s with grouping := List.prefix_append .. }
  | rawSql sql params =>
      rw [Call.residue]
      split
      · exact { Stays.refl s with raw := fun _ => rfl }
      · rfl
  | _ => rfl

theorem stays_finish (k : Compiler) (s : Statement) (t : Terminal) : s.Stays (t.finish k s).1 := by
  obtain ⟨operation, values, limit, left, kept, limited, -⟩ := t.finish_frame k s
  rw [left]
  refine { Stays.refl s with operation := kept, paginated := fun h => ?_ }
  simp only [isPaginated, Bool.or_eq_true] at h ⊢
  exact h.imp_left fun held => by rw [limited held]; exact held

end Statement

namespace Call

/-- The conditions that a call adds when it is accepted. -/
def conditions : Call → List Node
  | .condition name args => (Condition.ofCall name args).toOption.toList
  | _ => []

/-- The call can be told from the statement, apart from its table, conditions and consent. -/
def Marks (s : Statement) : Call → Prop
  | .table _ | .condition .. | .unconditional => True
  | .select _ => s.operation = some .select
  | .distinct => s.distinct = true
  | .join .. => s.joins ≠ []
  | .groupBy _ | .groupByRaw .. => s.grouping ≠ []
  | .having .. | .havingRaw .. => s.having ≠ []
  | .orderBy .. | .orderByRaw .. => s.ordering ≠ []
  | .limit _ | .offset _ | .paginate .. => s.isPaginated = true
  | .rawSql .. => s.isRaw = true

variable {s s' : Statement} {c : Call}

theorem mapM_ne_nil {α β : Type} {f : α → Except Error β} {xs : List α} {ys : List β}
    (given : xs ≠ []) (h : xs.mapM f = .ok ys) : ys ≠ [] := by
  rintro rfl
  exact given (List.forall₂_nil_right_iff.mp (mapM_ok_iff.mp h))

theorem orderingOf_ne_nil {field direction : Value} {entries : List OrderEntry}
    (h : orderingOf field direction = .ok entries) : entries ≠ [] := by
  simp only [orderingOf] at h
  split at h
  · cases h
  · next given => exact mapM_ne_nil given h
  · obtain ⟨_, -, h⟩ := ok_bind_iff.mp h
    cases h
    exact List.cons_ne_nil _ _

theorem groupingOf_ne_nil {items : List Value} {entries : List Entry} (given : items ≠ [])
    (h : groupingOf items = (entries, none)) : entries ≠ [] := by
  obtain ⟨item, items, rfl⟩ := List.exists_cons_of_ne_nil given
  simp only [groupingOf] at h
  split at h
  · cases h
  · obtain ⟨rfl, -⟩ := Prod.mk.inj h
    exact List.cons_ne_nil _ _

theorem marks_of_accepted (h : c.Accepted s s') : c.Marks s' := by
  cases h with
  | table | condition | unconditional => trivial
  | select | distinct | limit | paginate | rawSql => rfl
  | offset => exact Bool.or_true _
  | join | groupByRaw | having | havingRaw | orderByRaw =>
      exact List.append_ne_nil_of_right_ne_nil _ (List.cons_ne_nil _ _)
  | groupBy given read => exact List.append_ne_nil_of_right_ne_nil _ (groupingOf_ne_nil given read)
  | orderBy read => exact List.append_ne_nil_of_right_ne_nil _ (orderingOf_ne_nil read)

theorem Marks.mono (stays : s.Stays s') (h : c.Marks s) : c.Marks s' := by
  cases c with
  | table | condition | unconditional => trivial
  | select => exact stays.operation _ h
  | distinct => exact stays.distinct h
  | join => exact stays.joins.ne_nil h
  | groupBy | groupByRaw => exact stays.grouping.ne_nil h
  | having | havingRaw => exact stays.having.ne_nil h
  | orderBy | orderByRaw => exact stays.ordering.ne_nil h
  | limit | offset | paginate => exact stays.paginated h
  | rawSql => exact stays.raw h

end Call

/-- A statement holds what the accepted calls put there. -/
structure Statement.Collects (calls : List Call) (s : Statement) : Prop where
  predicates : s.predicates = calls.flatMap Call.conditions
  unconditional : s.unconditional = true ↔ Call.unconditional ∈ calls
  marks : ∀ c ∈ calls, c.Marks s

namespace Statement.Collects

variable {calls : List Call} {s s' : Statement}

theorem empty : Collects [] {} where
  predicates := rfl
  unconditional := by simp
  marks := fun _ h => nomatch h

/-- Whatever does not touch conditions and consent and lets everything else stay. -/
theorem kept (h : Collects calls s) (predicates : s'.predicates = s.predicates)
    (unconditional : s'.unconditional = s.unconditional) (stays : s.Stays s') :
    Collects calls s' where
  predicates := predicates.trans h.predicates
  unconditional := by rw [unconditional]; exact h.unconditional
  marks := fun c hc => (h.marks c hc).mono stays

theorem accepted (h : Collects calls s) {c : Call} (accepted : c.Accepted s s') :
    Collects (calls ++ [c]) s' where
  predicates := by
    rw [List.flatMap_append, List.flatMap_singleton, ← h.predicates]
    cases accepted with
    | condition read => rw [Call.conditions, read]; rfl
    | _ => exact (List.append_nil _).symm
  unconditional := by
    rw [List.mem_append, ← h.unconditional]
    cases accepted <;> simp
  marks := by
    intro d hd
    obtain hd | hd := List.mem_append.mp hd
    · exact (h.marks d hd).mono (stays_of_accepted accepted)
    · rw [List.mem_singleton.mp hd]
      exact Call.marks_of_accepted accepted

theorem refused (h : Collects calls s) (c : Call) : Collects calls (c.residue s) := by
  have same : (c.residue s).predicates = s.predicates ∧
      (c.residue s).unconditional = s.unconditional := by
    cases c with
    | rawSql sql params =>
        simp only [Call.residue]
        split <;> exact ⟨rfl, rfl⟩
    | _ => exact ⟨rfl, rfl⟩
  exact h.kept same.1 same.2 (stays_residue s c)

theorem finish (h : Collects calls s) (k : Compiler) (t : Terminal) :
    Collects calls (t.finish k s).1 := by
  obtain ⟨operation, values, limit, left, -⟩ := t.finish_frame k s
  refine h.kept ?_ ?_ (stays_finish k s t) <;> rw [left]

/-- Only calls put conditions into a statement. -/
theorem asked (h : Collects calls s) : ∀ node ∈ s.predicates, node.Asked True := by
  intro node hnode
  rw [h.predicates] at hnode
  obtain ⟨c, -, hc⟩ := List.mem_flatMap.mp hnode
  cases c with
  | condition name args =>
      simp only [Call.conditions, Option.mem_toList] at hc
      cases read : Condition.ofCall name args with
      | error e =>
          rw [read] at hc
          cases hc
      | ok made =>
          rw [read] at hc
          cases hc
          exact Condition.ofCall_asked name args (fun _ => trivial) read
  | _ => cases hc

end Statement.Collects

/-- The calls accepted by the builder of a name since it was made, after one more step. -/
def Session.noted (name : String) (calls : List Call) (step : (String × Action) × Report) :
    List Call :=
  if step.1.1 = name ∧ step.2.outcome.isOk = true then
    match step.1.2 with
    | .chain c => calls ++ [c]
    | .fresh => []
    | .startTable reference => [.table reference]
    | .startRaw sql params => [.rawSql sql params]
    | _ => calls
  else calls

/-- The calls accepted by the builder of a name since it was made, read off steps and reports. -/
def Session.acceptedCalls (name : String) (trace : List ((String × Action) × Report)) : List Call :=
  trace.foldl (noted name) []

/-- What holds of a new statement goes on holding of the calls that were accepted and the statement
that they led to, whatever is done to it. Of the refused calls it has to stand the admitted ones. -/
structure Statement.Traced (admitted : Call → Prop) (P : List Call → Statement → Prop) : Prop where
  new : P [] {}
  accepted : ∀ {calls : List Call} {s s' : Statement} {c : Call},
    P calls s → c.Accepted s s' → P (calls ++ [c]) s'
  refused : ∀ {calls : List Call} {s : Statement} (c : Call),
    admitted c → P calls s → P calls (c.residue s)
  finish : ∀ {calls : List Call} {s : Statement} (k : Compiler) (t : Terminal),
    P calls s → P calls (t.finish k s).1

/-- Whether the calls that were refused on the builder of a name are all admitted. -/
def Session.RefusesOnly (admitted : Call → Prop) (name : String)
    (trace : List ((String × Action) × Report)) : Prop :=
  ∀ entry ∈ trace, entry.1.1 = name → ∀ c, entry.1.2 = .chain c →
    entry.2.outcome.isOk = false → admitted c

theorem Statement.Collects.traced : Traced (fun _ => True) Collects where
  new := .empty
  accepted held given := held.accepted given
  refused c _ held := held.refused c
  finish k t held := held.finish k t

variable {admitted : Call → Prop} {P : List Call → Statement → Prop} {calls : List Call}

namespace Builder

open Statement (Traced)

variable {b : Builder}

theorem traced_chain (h : Traced admitted P) (held : P calls b.statement) (c : Call)
    (refusal : (b.chain c).2.isNone = false → admitted c) :
    P (if (b.chain c).2.isNone then calls ++ [c] else calls) (b.chain c).1.statement := by
  cases used : b.consumed with
  | true =>
      rw [chain_consumed used]
      exact held
  | false =>
      rw [chain_open used] at refusal ⊢
      cases fault : (c.apply b.statement).2 with
      | none => exact h.accepted held (Call.apply_accepted.mp (Prod.ext rfl fault))
      | some e =>
          have left : (c.apply b.statement).1 = c.residue b.statement :=
            Call.apply_refused (Prod.ext rfl fault)
          rw [fault] at refusal
          simp only [left]
          exact h.refused c (refusal rfl) held

theorem traced_finish (h : Traced admitted P) (held : P calls b.statement) (k : Compiler)
    (t : Terminal) : P calls (b.finish k t).1.statement := by
  cases used : b.consumed with
  | true =>
      rw [finish_consumed used]
      exact held
  | false =>
      rw [finish_open used]
      exact h.finish k t held

end Builder

namespace Session

open Statement (Traced Collects)

variable (s : Session) (name : String)

theorem isOk_chain (c : Call) :
    (s.step name (.chain c)).2.outcome.isOk = ((s.builderOrNew name).chain c).2.isNone := by
  simp only [step]
  cases ((s.builderOrNew name).chain c).2 <;> rfl

theorem isOk_start {member : String} {c : Call}
    (h : (s.start name member c).2.outcome.isOk = true) : (Builder.chain {} c).2 = none := by
  simp only [start] at h
  split at h
  · cases h
  · split at h
    · next made => rw [made]
    · cases h

theorem traced_start (h : Traced admitted P) (held : P calls (s.builderOrNew name).statement)
    (member : String) (c : Call) :
    let accepted := (s.start name member c).2.outcome.isOk
    P (if accepted then [c] else calls)
      (if accepted then (Builder.chain {} c).1 else s.builderOrNew name).statement := by
  intro accepted
  cases made : accepted with
  | false => exact held
  | true =>
      have unrefused := s.isOk_start name made
      have led := Builder.traced_chain (b := {}) h h.new c (by rw [unrefused]; exact nofun)
      rw [unrefused] at led
      exact led

/-- One step: what held of the builder holds after it, with the new call if it was accepted. -/
theorem traced_step (h : Traced admitted P) (held : P calls (s.builderOrNew name).statement)
    (m : String) (a : Action)
    (refusal : m = name → ∀ c, a = .chain c → (s.step m a).2.outcome.isOk = false → admitted c) :
    P (noted name calls ((m, a), (s.step m a).2))
      ((s.step m a).1.builderOrNew name).statement := by
  rw [builderOrNew_step]
  by_cases same : name = m
  · subst same
    simp only [noted, true_and, if_true]
    cases a with
    | chain c =>
        have refused := refusal rfl c rfl
        rw [isOk_chain] at refused ⊢
        exact Builder.traced_chain h held c refused
    | finish t =>
        rw [ite_self]
        exact Builder.traced_finish h held s.compiler t
    | fresh => exact h.new
    | startTable reference => exact s.traced_start name h held "table" (.table reference)
    | startRaw sql params => exact s.traced_start name h held "raw_sql" (.rawSql sql params)
    | _ =>
        rw [ite_self]
        exact held
  · rw [if_neg same, noted, if_neg fun both => same both.1.symm]
    exact held

/-- A run of steps: what held of a new builder holds after it, with the calls accepted on the way.
-/
theorem traced_run (h : Traced admitted P) (new : s.builderOrNew name = {})
    (steps : List (String × Action)) (refusals : RefusesOnly admitted name (s.trace steps)) :
    P (acceptedCalls name (s.trace steps)) ((s.run steps).1.builderOrNew name).statement := by
  -- the induction needs the session and the calls so far to be arbitrary
  suffices general : ∀ (steps : List (String × Action)) (s : Session) (calls : List Call),
      RefusesOnly admitted name (s.trace steps) → P calls (s.builderOrNew name).statement →
        P ((s.trace steps).foldl (noted name) calls)
          ((s.run steps).1.builderOrNew name).statement from
    general steps s [] refusals (by rw [new]; exact h.new)
  intro steps
  induction steps with
  | nil => exact fun _ _ _ held => held
  | cons step steps ih =>
      intro s calls refusals held
      obtain ⟨m, a⟩ := step
      rw [RefusesOnly, trace_cons, List.forall_mem_cons] at refusals
      obtain ⟨now, later⟩ := refusals
      rw [run_cons, trace_cons, List.foldl_cons]
      exact ih _ _ later (s.traced_step name h held m a now)

/-- The builder holds what the calls accepted on the way put there. -/
theorem collects_run (new : s.builderOrNew name = {}) (steps : List (String × Action)) :
    Collects (acceptedCalls name (s.trace steps))
      ((s.run steps).1.builderOrNew name).statement :=
  s.traced_run name Collects.traced new steps fun _ _ _ _ _ _ => trivial

end Session
end FluentSql
