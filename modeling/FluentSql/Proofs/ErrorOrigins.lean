import FluentSql.Proofs.SessionSteps

/-!
Where errors come from. A step either asks nothing of the provider and the database, whatever they
would reply, or it makes one exchange. The errors that speak of the statement or of a missing
executor arise in steps of the first kind only. In an exchange every exception of the provider, the
engine, the execution, the fetch or the commit ends the step: an error of the database as the report
that the query failed, anything else as it was raised.
-/

namespace FluentSql

/-- The errors that speak of the statement or of a missing executor. -/
def Error.IsOwn : Error → Prop
  | .failure f => f.code.category.isBuild = true ∨ f.code = .connectionNotConfigured
  | .invalid _ | .raised _ => False

/-- All errors of an outcome were raised elsewhere. -/
def OnlyRaises {α : Type} (x : Except Error α) : Prop :=
  ∀ e, x = .error e → ∃ raised, e = .raised raised

namespace OnlyRaises

variable {α β : Type}

theorem ok (a : α) : OnlyRaises (.ok a) := nofun

theorem raised (e : Raised) : OnlyRaises (.error (.raised e) : Except Error α) := by
  intro _ h
  cases h
  exact ⟨e, rfl⟩

theorem bind {x : Except Error α} {f : α → Except Error β} (hx : OnlyRaises x)
    (hf : ∀ a, OnlyRaises (f a)) : OnlyRaises (x >>= f) := by
  cases x with
  | ok a => exact hf a
  | error e =>
      intro _ h
      cases h
      exact hx e rfl

theorem mapM {f : α → Except Error β} (hf : ∀ a, OnlyRaises (f a)) (xs : List α) :
    OnlyRaises (xs.mapM f) := by
  induction xs with
  | nil => exact ok []
  | cons x xs ih =>
      rw [List.mapM_cons]
      exact bind (hf x) fun _ => bind ih fun _ => ok _

end OnlyRaises

namespace Rows

end Rows

namespace Executor

variable (x : Executor) (q : Request) (c : Compiled)

variable {count : Nat} (first : q.checkFirst = .ok ()) (counted : c.paramCount = .ok count)

include first counted

end Executor

namespace Session

variable (s : Session) (name : String)

/-- The request and the compiled statement that a step hands to an executor. -/
def handed? : Action → Option (Request × Compiled)
  | .finish t =>
    ((s.builderOrNew name).finish s.compiler t).2.toOption.map fun o => (o.request, o.compiled)
  | .request q statement => (Compiled.ofFields statement).toOption.map fun c => (q, c)
  | _ => none

/-- The step makes an exchange: it hands a request to an executor, and all checks let it through. -/
structure Exchanges (a : Action) (x : Executor) (q : Request) (c : Compiled) (count : Nat) :
    Prop where
  executor : s.executor? = some x
  handed : s.handed? name a = some (q, c)
  first : q.checkFirst = .ok ()
  counted : c.paramCount = .ok count

variable {s name}

/-- With an executor, a step performs a request on the next reply, or closes the provider at
most. -/
theorem step_performs (name : String) {x : Executor} (executor : s.executor? = some x)
    (a : Action) :
    (∃ q c countsRows, s.handed? name a = some (q, c) ∧
      (s.step name a).2.outcome = (x.perform q c (Reply.next s.replies).1).1.outcome.map
        (Result.ofAnswer countsRows) ∧
      (s.step name a).2.events = (x.perform q c (Reply.next s.replies).1).1.events) ∨
    s.handed? name a = none ∧ ∀ event ∈ (s.step name a).2.events, event = .closeProvider := by
  have carried (s' : Session) (same : s'.executor? = some x) (o : Order) :
      (s'.carryOut o).2.outcome =
          (x.perform o.request o.compiled (Reply.next s'.replies).1).1.outcome.map
            (Result.ofAnswer o.countsRows) ∧
        (s'.carryOut o).2.events =
          (x.perform o.request o.compiled (Reply.next s'.replies).1).1.events := by
    simp only [carryOut, same, Executor.run_outcome, true_and]
    rfl
  cases a with
  | finish t =>
      cases finished : (s.builderOrNew name).finish s.compiler t with
      | mk b order =>
          simp only [handed?, step, finished]
          cases order with
          | error e => exact .inr ⟨rfl, List.forall_mem_nil _⟩
          | ok o =>
              exact .inl ⟨o.request, o.compiled, o.countsRows, rfl,
                carried (s.store name b) executor o⟩
  | request q statement =>
      simp only [handed?, step, request, executor]
      cases read : Compiled.ofFields statement with
      | error e => exact .inr ⟨rfl, List.forall_mem_nil _⟩
      | ok c =>
          exact .inl ⟨q, c, false, rfl, carried s executor { request := q, compiled := c }⟩
  | getConnection =>
      rw [step, getConnection_events]
      exact .inr ⟨rfl, List.forall_mem_nil _⟩
  | close | closeAfterUse =>
      refine .inr ⟨rfl, ?_⟩
      cases provider : s.provider with
      | none =>
          simp [step, close, closeAfterUse, provider, noDatabase, Report.refused, Report.plain]
      | some p =>
          simp only [step, close, closeAfterUse, provider, Option.elim]
          exact closeProvider_events p _
  | _ =>
      rw [s.step_events_of_local name rfl]
      exact .inr ⟨rfl, List.forall_mem_nil _⟩

/-- What a step comes to that makes an exchange is what its executor performs on the next reply. -/
theorem Exchanges.outcome {a : Action} {x : Executor} {q : Request} {c : Compiled} {count : Nat}
    (h : s.Exchanges name a x q c count) :
    (∃ countsRows, (s.step name a).2.outcome =
        (x.perform q c (Reply.next s.replies).1).1.outcome.map (Result.ofAnswer countsRows)) ∧
      (s.step name a).2.events = (x.perform q c (Reply.next s.replies).1).1.events := by
  obtain ⟨q', c', countsRows, handed, outcome, events⟩ | ⟨none, -⟩ :=
    step_performs name h.executor a
  · cases handed.symm.trans h.handed
    exact ⟨⟨countsRows, outcome⟩, events⟩
  · cases none.symm.trans h.handed

/-- A session on an engine that loses the next commit. -/
def losingCommit : Session where
  compiler := {}
  provider := some { handle := .engine }
  builders := [("q", { statement := { table := some "t", unconditional := true } })]
  replies := [{ fault := some (.commit, ⟨"OperationalError", "lost", false⟩) }]

end Session
end FluentSql
