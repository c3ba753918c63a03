import FluentSql.Proofs.ChainedCalls
import FluentSql.Proofs.SessionSteps
import FluentSql.Proofs.TerminalCalls

/-!
Statements by the calls that led to them. In every run of a session, the builder under a name that
was new holds a statement that chained calls and terminal calls built, each of them made by a step
on that name. What such calls preserve holds of the builder after every run.
-/

namespace FluentSql

/-- A statement that calls of some kind and terminal calls lead to from a new builder, or the
statement that is compiled when such a one is looked at. -/
inductive Statement.Built (allowed : Call → Prop) : Statement → Prop
  | new : Built allowed {}
  | call {s : Statement} (built : Built allowed s) {c : Call} (hc : allowed c) :
      Built allowed (c.apply s).1
  | finish {s : Statement} (built : Built allowed s) (k : Compiler) (t : Terminal) :
      Built allowed (t.finish k s).1
  | preview {s : Statement} (built : Built allowed s) : Built allowed (Builder.previewed s)

/-- The chained calls that an action makes. -/
def Action.calls : Action → List Call
  | .chain c => [c]
  | .startTable reference => [.table reference]
  | .startRaw sql params => [.rawSql sql params]
  | _ => []

section

variable {allowed : Call → Prop}

namespace Builder

variable {b : Builder}

theorem built_chain (built : b.statement.Built allowed) {c : Call} (hc : allowed c) :
    (b.chain c).1.statement.Built allowed := by
  cases used : b.consumed with
  | true =>
      rw [chain_consumed used]
      exact built
  | false =>
      rw [chain_open used]
      exact built.call hc

theorem built_finish (built : b.statement.Built allowed) (k : Compiler) (t : Terminal) :
    (b.finish k t).1.statement.Built allowed := by
  cases used : b.consumed with
  | true =>
      rw [finish_consumed used]
      exact built
  | false =>
      rw [finish_open used]
      exact built.finish k t

theorem built_after (built : b.statement.Built allowed) (k : Compiler) (accepted : Bool)
    {a : Action} (calls : ∀ c ∈ a.calls, allowed c) :
    (b.after k accepted a).statement.Built allowed := by
  have first {c : Call} (hc : allowed c) : (chain {} c).1.statement.Built allowed :=
    built_chain .new hc
  cases a with
  | chain c => exact built_chain built (calls c (List.mem_singleton_self c))
  | finish t => exact built_finish built k t
  | fresh =>
      rw [after]
      split
      · exact .new
      · exact built
  | startTable | startRaw =>
      rw [after]
      split
      · exact first (calls _ (List.mem_singleton_self _))
      · exact built
  | _ => exact built

end Builder

namespace Session

variable (s : Session) (name : String)

/-- The builder of a name that was new, after any run. -/
theorem built_run (new : s.builderOrNew name = {}) (steps : List (String × Action))
    (calls : ∀ step ∈ steps, step.1 = name → ∀ c ∈ step.2.calls, allowed c) :
    ((s.run steps).1.builderOrNew name).statement.Built allowed := by
  have first : (s.builderOrNew name).statement.Built allowed := by
    rw [new]
    exact .new
  refine s.builder_run name (fun b => b.statement.Built allowed)
    (fun a => ∀ c ∈ a.calls, allowed c) (fun b k accepted a built calls => ?_) first steps calls
  exact Builder.built_after built k accepted calls

end Session

end
end FluentSql
