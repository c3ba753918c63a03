import FluentSql.Proofs.SessionSteps
import FluentSql.Proofs.TerminalCalls

/-!
Builders are used once. A terminal call uses its builder up, whatever comes of it, and a builder
that is used up refuses every further use without any change or event. So a builder that is not
replaced executes one text at most, over all its life.
-/

namespace FluentSql

namespace Action

/-- The actions that use a builder: chained calls, previews and terminal calls. -/
def isUse : Action → Bool
  | .chain _ | .finish _ | .compile | .toSql => true
  | _ => false

/-- The actions that put a new builder in the place of the one before. -/
def replaces : Action → Bool
  | .fresh | .startTable _ | .startRaw .. => true
  | _ => false

end Action

/-- No step of a trace puts a new builder under the name. -/
def Session.Keeps (name : String) (trace : List ((String × Action) × Report)) : Prop :=
  ∀ step ∈ trace, step.1.1 = name → step.1.2.replaces = true → step.2.outcome.isOk = false

instance (name : String) (trace : List ((String × Action) × Report)) :
    Decidable (Session.Keeps name trace) :=
  inferInstanceAs (Decidable (∀ step ∈ trace, _ → _ → _))

/-- What the uses of the builder of a name execute. -/
def Session.executions (name : String) (trace : List ((String × Action) × Report)) : List Event :=
  trace.flatMap fun step =>
    if step.1.1 = name ∧ step.1.2.isUse = true then Event.execs step.2.events else []

/-- The report on a use of a builder that is used up. -/
def Report.usedUp : Report :=
  .refused (.failure {
    code := .statementConsumed
    message := "Query builder was already executed; start a new query for each statement" })

theorem Action.isLocal_of_use {a : Action} (use : a.isUse = true) (other : ∀ t, a ≠ .finish t) :
    a.isLocal = true := by
  cases a with
  | finish t => exact absurd rfl (other t)
  | chain | compile | toSql => rfl
  | _ => cases use

namespace Builder

variable {b : Builder}

/-- Every terminal call uses its builder up. -/
theorem consumed_finish (k : Compiler) (b : Builder) (t : Terminal) :
    (b.finish k t).1.consumed = true := by
  cases used : b.consumed with
  | true =>
      rw [finish_consumed used]
      exact used
  | false => rw [finish_open used]

theorem after_consumed {k : Compiler} {accepted : Bool} {a : Action} (used : b.consumed = true)
    (kept : a.replaces = true → accepted = false) : b.after k accepted a = b := by
  cases a with
  | chain c => rw [after, chain_consumed used]
  | finish t => rw [after, finish_consumed used]
  | fresh | startTable | startRaw => rw [after, kept rfl]; rfl
  | _ => rfl

end Builder

namespace Session

variable (s : Session) (name : String)

theorem length_finish_execs (t : Terminal) :
    (Event.execs (s.step name (.finish t)).2.events).length ≤ 1 := by
  obtain none | ⟨b, o, parameters, -, -, one⟩ := s.finish_execs name t
  · rw [none]
    exact Nat.zero_le 1
  · rw [one]
    exact Nat.le_refl 1

/-- A builder that is used up refuses every use in the same way. -/
theorem step_usedUp {a : Action} (used : (s.builderOrNew name).consumed = true)
    (use : a.isUse = true) : (s.step name a).2 = .usedUp := by
  cases a with
  | chain c =>
      simp only [step, Builder.chain_consumed used]
      rfl
  | finish t =>
      simp only [step, Builder.finish_consumed used]
      rfl
  | compile | toSql =>
      simp only [step, Builder.preview, used, if_true]
      rfl
  | _ => cases use

/-- A builder that is used up stays as it is until it is replaced. -/
theorem step_keeps_usedUp {m : String} {a : Action}
    (used : (s.builderOrNew name).consumed = true)
    (kept : m = name → a.replaces = true → (s.step m a).2.outcome.isOk = false) :
    (s.step m a).1.builderOrNew name = s.builderOrNew name := by
  rw [builderOrNew_step]
  by_cases same : name = m
  · subst same
    rw [if_pos rfl]
    exact Builder.after_consumed used (kept rfl)
  · rw [if_neg same]

theorem run_keeps_usedUp (steps : List (String × Action))
    (used : (s.builderOrNew name).consumed = true) (kept : Keeps name (s.trace steps)) :
    (s.run steps).1.builderOrNew name = s.builderOrNew name ∧
      ∀ step ∈ s.trace steps, step.1.1 = name → step.1.2.isUse = true → step.2 = .usedUp := by
  induction steps generalizing s with
  | nil => exact ⟨rfl, fun _ h => nomatch h⟩
  | cons step steps ih =>
      obtain ⟨m, a⟩ := step
      rw [trace_cons] at kept ⊢
      obtain ⟨first, rest⟩ := List.forall_mem_cons.mp kept
      have same := s.step_keeps_usedUp name used first
      obtain ⟨left, refused⟩ := ih (s.step m a).1 (by rw [same]; exact used) rest
      refine ⟨left.trans same, List.forall_mem_cons.mpr ⟨?_, refused⟩⟩
      rintro rfl use
      exact s.step_usedUp m used use

theorem executions_usedUp (steps : List (String × Action))
    (used : (s.builderOrNew name).consumed = true) (kept : Keeps name (s.trace steps)) :
    executions name (s.trace steps) = [] := by
  refine List.flatMap_eq_nil_iff.mpr fun step hstep => ?_
  split
  · next both =>
      rw [(s.run_keeps_usedUp name steps used kept).2 step hstep both.1 both.2]
      rfl
  · rfl

theorem length_executions_le_one (steps : List (String × Action))
    (kept : Keeps name (s.trace steps)) : (executions name (s.trace steps)).length ≤ 1 := by
  induction steps generalizing s with
  | nil => exact Nat.zero_le 1
  | cons step steps ih =>
      obtain ⟨m, a⟩ := step
      rw [trace_cons] at kept ⊢
      have rest := (List.forall_mem_cons.mp kept).2
      rw [executions, List.flatMap_cons, List.length_append]
      by_cases both : m = name ∧ a.isUse = true
      · obtain ⟨rfl, use⟩ := both
        rw [if_pos ⟨rfl, use⟩]
        by_cases ends : ∃ t, a = .finish t
        · obtain ⟨t, rfl⟩ := ends
          -- the first terminal call is the last step that can execute anything
          have used : ((s.step m (.finish t)).1.builderOrNew m).consumed = true := by
            rw [builderOrNew_step, if_pos rfl]
            exact Builder.consumed_finish s.compiler _ t
          have none := (s.step m (.finish t)).1.executions_usedUp m steps used rest
          rw [executions] at none
          rw [none]
          exact s.length_finish_execs m t
        · have here := Action.isLocal_of_use use fun t h => ends ⟨t, h⟩
          rw [s.step_events_of_local m here, Event.execs, List.filter_nil, List.length_nil,
            Nat.zero_add]
          exact ih _ rest
      · rw [if_neg both, List.length_nil, Nat.zero_add]
        exact ih _ rest

/-- As long as a builder is not replaced, every use after its first terminal call is refused,
without an event and without a change to the builder, and all its uses together execute one text at
most. -/
theorem builder_is_used_once (steps : List (String × Action)) (kept : Keeps name (s.trace steps)) :
    (∀ before t after, steps = before ++ (name, .finish t) :: after →
      let used := ((s.run before).1.step name (.finish t)).1
      (used.run after).1.builderOrNew name = used.builderOrNew name ∧
        ∀ step ∈ used.trace after, step.1.1 = name → step.1.2.isUse = true →
          step.2 = .usedUp) ∧
      (executions name (s.trace steps)).length ≤ 1 := by
  refine ⟨?_, s.length_executions_le_one name steps kept⟩
  rintro before t after rfl used
  rw [trace_append, trace_cons] at kept
  refine run_keeps_usedUp used name after ?_ fun step hstep =>
    kept step (List.mem_append_right _ (List.mem_cons_of_mem _ hstep))
  rw [builderOrNew_step, if_pos rfl]
  exact Builder.consumed_finish _ _ t

/-- A write without a condition, the consent to it given too late, and a second attempt. -/
def lateSteps : List (String × Action) :=
  [("q", .chain (.table (.text "t"))), ("q", .finish .delete), ("q", .chain .unconditional),
    ("q", .finish .delete)]

/-- A terminal call that is refused uses its builder up like any other. -/
theorem builder_is_used_once_of_refused :
    let s : Session := { compiler := {}, provider := some ⟨.engine, true⟩ }
    let used := ((s.run [("q", .chain (.table (.text "t")))]).1.step "q" (.finish .delete)).1
    Keeps "q" (s.trace lateSteps) ∧
      (∀ step ∈ used.trace [("q", .chain .unconditional), ("q", .finish .delete)],
        step.2 = .usedUp) ∧
      (executions "q" (s.trace lateSteps)).length ≤ 1 := by
  intro s used
  have kept : Keeps "q" (s.trace lateSteps) := by decide +kernel
  obtain ⟨later, once⟩ := s.builder_is_used_once "q" lateSteps kept
  obtain ⟨-, refused⟩ := later [("q", .chain (.table (.text "t")))] .delete
    [("q", .chain .unconditional), ("q", .finish .delete)] rfl
  have uses : ∀ step ∈ used.trace [("q", .chain .unconditional), ("q", .finish .delete)],
      step.1.1 = "q" ∧ step.1.2.isUse = true := by decide +kernel
  exact ⟨kept, fun step hstep => refused step hstep (uses step hstep).1 (uses step hstep).2, once⟩

end Session
end FluentSql
