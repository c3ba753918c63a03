import FluentSql.Proofs.Exchanges
import FluentSql.Proofs.NamedFields
import FluentSql.Session

/-!
Steps of a session, seen from one builder. A step touches the builder of its own name only, and the
compiler and the database of a session never change. What becomes of the builder depends on the
action and, for the actions that put a new builder in its place, on whether they were accepted.
-/

namespace FluentSql

/-- What an action makes of the builder of its name; `accepted` says whether it had a result. -/
def Builder.after (k : Compiler) (accepted : Bool) (b : Builder) : Action → Builder
  | .chain c => (b.chain c).1
  | .finish t => (b.finish k t).1
  | .fresh => if accepted then {} else b
  | .startTable name => if accepted then (chain {} (.table name)).1 else b
  | .startRaw sql params => if accepted then (chain {} (.rawSql sql params)).1 else b
  | _ => b

/-- The actions that only look at a builder. -/
def Action.isLook : Action → Bool
  | .compile | .toSql | .statement | .consumed => true
  | _ => false

theorem Builder.after_look (b : Builder) (k : Compiler) (accepted : Bool) {a : Action}
    (look : a.isLook = true) : b.after k accepted a = b := by
  cases a with
  | compile | toSql | statement | consumed => rfl
  | _ => cases look

/-- The actions that ask neither the provider nor the database for anything. -/
def Action.isLocal : Action → Bool
  | .finish _ | .request .. | .getConnection | .close | .closeAfterUse => false
  | _ => true

namespace Session

variable (s : Session) (name : String)

theorem builderOrNew_store (b : Builder) (m : String) :
    (s.store name b).builderOrNew m = if m = name then b else s.builderOrNew m := by
  simp only [builderOrNew, builder?, store, Fields.get?_insert]
  split <;> rfl

theorem builderOrNew_store_self (m : String) :
    (s.store name (s.builderOrNew name)).builderOrNew m = s.builderOrNew m := by
  rw [builderOrNew_store]
  split
  · next same => rw [same]
  · rfl

theorem carryOut_frame (o : Order) :
    ∃ replies, (s.carryOut o).1 = { s with replies := replies } := by
  simp only [carryOut]
  split
  · exact ⟨s.replies, rfl⟩
  · exact ⟨_, rfl⟩

theorem request_frame (q : Request) (statement : List (String × Value)) :
    ∃ replies, (s.request q statement).1 = { s with replies := replies } := by
  simp only [request]
  split
  · exact ⟨s.replies, rfl⟩
  · exact ⟨s.replies, rfl⟩
  · exact s.carryOut_frame _

theorem getConnection_frame : ∃ replies, s.getConnection.1 = { s with replies := replies } := by
  simp only [getConnection]
  split
  · exact ⟨s.replies, rfl⟩
  · split
    · exact ⟨_, rfl⟩
    · exact ⟨s.replies, rfl⟩

theorem start_frame (member : String) (c : Call) :
    ∃ builders, (s.start name member c).1 = { s with builders := builders } := by
  simp only [start]
  split
  · exact ⟨s.builders, rfl⟩
  · split
    · exact ⟨_, rfl⟩
    · exact ⟨s.builders, rfl⟩

theorem builderOrNew_start (member : String) (c : Call) (m : String) :
    (s.start name member c).1.builderOrNew m =
      if m = name ∧ (s.start name member c).2.outcome.isOk = true then (Builder.chain {} c).1
      else s.builderOrNew m := by
  simp only [start]
  split
  · simp [noDatabase, Report.refused, Report.plain, Except.isOk, Except.toBool]
  · split
    · next b given =>
        rw [builderOrNew_store, given]
        simp [Report.plain, Except.isOk, Except.toBool]
    · simp [Report.refused, Report.plain, Except.isOk, Except.toBool]

/-- A step makes of its own builder what the action makes of it, and leaves every other builder. -/
theorem builderOrNew_step (a : Action) (m : String) :
    (s.step name a).1.builderOrNew m =
      if m = name then
        (s.builderOrNew name).after s.compiler (s.step name a).2.outcome.isOk a
      else s.builderOrNew m := by
  -- reading an absent builder stores a new one, which the look-up cannot tell
  have kept (same : (s.step name a).1.builderOrNew m = s.builderOrNew m) :
      (s.step name a).1.builderOrNew m = if m = name then s.builderOrNew name
        else s.builderOrNew m := by
    rw [same]
    split
    · next h => rw [h]
    · rfl
  cases a with
  | chain c | fresh => exact s.builderOrNew_store name _ m
  | finish t =>
      simp only [step]
      split
      · exact s.builderOrNew_store name _ m
      · next o _ =>
          obtain ⟨replies, left⟩ := (s.store name _).carryOut_frame o
          rw [left]
          exact s.builderOrNew_store name _ m
  | compile | toSql | statement | consumed | wrongArity | unknown =>
      exact kept (s.builderOrNew_store_self name m)
  | startTable | startRaw =>
      by_cases same : m = name
      · subst same
        simp only [step, builderOrNew_start, Builder.after, true_and, if_true]
        rfl
      · simp only [step, builderOrNew_start, same, false_and, if_false]
  | getConnection =>
      obtain ⟨replies, left⟩ := s.getConnection_frame
      exact kept (by rw [step, left]; rfl)
  | request q statement =>
      obtain ⟨replies, left⟩ := s.request_frame q statement
      exact kept (by rw [step, left]; rfl)
  | close | closeAfterUse | excessRequest | misused => exact kept rfl

theorem step_keeps (a : Action) :
    (s.step name a).1.compiler = s.compiler ∧ (s.step name a).1.provider = s.provider := by
  cases a with
  | finish t =>
      simp only [step]
      split
      · exact ⟨rfl, rfl⟩
      · next o _ =>
          obtain ⟨replies, left⟩ := (s.store name _).carryOut_frame o
          rw [left]
          exact ⟨rfl, rfl⟩
  | startTable reference =>
      obtain ⟨builders, left⟩ := s.start_frame name "table" (.table reference)
      rw [step, left]
      exact ⟨rfl, rfl⟩
  | startRaw sql params =>
      obtain ⟨builders, left⟩ := s.start_frame name "raw_sql" (.rawSql sql params)
      rw [step, left]
      exact ⟨rfl, rfl⟩
  | getConnection =>
      obtain ⟨replies, left⟩ := s.getConnection_frame
      rw [step, left]
      exact ⟨rfl, rfl⟩
  | request q statement =>
      obtain ⟨replies, left⟩ := s.request_frame q statement
      rw [step, left]
      exact ⟨rfl, rfl⟩
  | _ => exact ⟨rfl, rfl⟩

theorem start_events (member : String) (c : Call) : (s.start name member c).2.events = [] := by
  simp only [start]
  split
  · rfl
  · split <;> rfl

theorem excessRequest_events (callee : String) (least greatest given : Nat)
    (statement : List (String × Value)) :
    (s.excessRequest callee least greatest given statement).events = [] := by
  simp only [excessRequest]
  split <;> rfl

theorem getConnection_events : s.getConnection.2.events = [] := by
  simp only [getConnection]
  split
  · rfl
  · split <;> rfl

theorem closeProvider_events (p : Provider) (result : Result) :
    ∀ event ∈ (closeProvider p result).events, event = .closeProvider := by
  simp only [closeProvider]
  split <;> simp

theorem step_events_of_local {a : Action} (here : a.isLocal = true) :
    (s.step name a).2.events = [] := by
  cases a with
  | chain | compile | toSql | misused =>
      simp only [step]
      split <;> rfl
  | startTable reference => exact s.start_events name "table" (.table reference)
  | startRaw sql params => exact s.start_events name "raw_sql" (.rawSql sql params)
  | excessRequest callee least greatest given statement =>
      exact s.excessRequest_events callee least greatest given statement
  | statement | consumed | fresh | wrongArity | unknown => rfl
  | finish | request | getConnection | close | closeAfterUse => cases here

theorem carryOut_execs (o : Order) :
    Event.execs (s.carryOut o).2.events = [] ∨
      ∃ parameters, Compiled.bindParameters o.compiled.parameters = .ok parameters ∧
        Event.execs (s.carryOut o).2.events = [.exec o.compiled.sql parameters] := by
  simp only [carryOut]
  split
  · exact .inl rfl
  · next x _ => exact x.perform_execs o.request o.compiled (Reply.next s.replies).1

/-- A terminal call executes the text that it ordered with its parameters as they are bound, once,
or nothing. -/
theorem finish_execs (t : Terminal) :
    Event.execs (s.step name (.finish t)).2.events = [] ∨
      ∃ b o parameters, (s.builderOrNew name).finish s.compiler t = (b, .ok o) ∧
        Compiled.bindParameters o.compiled.parameters = .ok parameters ∧
        Event.execs (s.step name (.finish t)).2.events = [.exec o.compiled.sql parameters] := by
  cases h : (s.builderOrNew name).finish s.compiler t with
  | mk b order =>
      simp only [step, h]
      cases order with
      | error e => exact .inl rfl
      | ok o =>
          obtain none | ⟨parameters, bound, one⟩ := (s.store name b).carryOut_execs o
          · exact .inl none
          · exact .inr ⟨b, o, parameters, rfl, bound, one⟩

/-- What a terminal call executes is the text of its order with its parameters as they are bound. -/
theorem finish_handed {t : Terminal} {sql : String} {parameters : Value}
    (handed : .exec sql parameters ∈ (s.step name (.finish t)).2.events) :
    ∃ b o, (s.builderOrNew name).finish s.compiler t = (b, .ok o) ∧ sql = o.compiled.sql ∧
      Compiled.bindParameters o.compiled.parameters = .ok parameters := by
  have one : .exec sql parameters ∈ Event.execs (s.step name (.finish t)).2.events :=
    List.mem_filter.mpr ⟨handed, rfl⟩
  obtain none | ⟨b, o, bound, finished, held, execs⟩ := s.finish_execs name t
  · rw [none] at one
    cases one
  · rw [execs, List.mem_singleton] at one
    obtain ⟨text, same⟩ := Event.exec.inj one
    exact ⟨b, o, finished, text, same ▸ held⟩

theorem run_cons (a : Action) (steps : List (String × Action)) :
    s.run ((name, a) :: steps) =
      (((s.step name a).1.run steps).1, (s.step name a).2 :: ((s.step name a).1.run steps).2) := rfl

theorem run_append (before after : List (String × Action)) :
    s.run (before ++ after) =
      (((s.run before).1.run after).1, (s.run before).2 ++ ((s.run before).1.run after).2) := by
  induction before generalizing s with
  | nil => rfl
  | cons step before ih =>
      obtain ⟨name, a⟩ := step
      rw [List.cons_append, run_cons, run_cons, ih]
      rfl

theorem length_reports (steps : List (String × Action)) :
    (s.run steps).2.length = steps.length := by
  induction steps generalizing s with
  | nil => rfl
  | cons step steps ih =>
      rw [run_cons, List.length_cons, List.length_cons, ih]

theorem run_keeps (steps : List (String × Action)) :
    (s.run steps).1.compiler = s.compiler ∧ (s.run steps).1.provider = s.provider := by
  induction steps generalizing s with
  | nil => exact ⟨rfl, rfl⟩
  | cons step steps ih =>
      obtain ⟨name, a⟩ := step
      obtain ⟨compiler, provider⟩ := s.step_keeps name a
      rw [run_cons, ← compiler, ← provider]
      exact ih _

/-- What the actions on a builder keep, a run of the session keeps. -/
theorem builder_run (P : Builder → Prop) (admitted : Action → Prop)
    (kept : ∀ (b : Builder) (k : Compiler) (accepted : Bool) (a : Action),
      P b → admitted a → P (b.after k accepted a))
    (first : P (s.builderOrNew name)) (steps : List (String × Action))
    (actions : ∀ step ∈ steps, step.1 = name → admitted step.2) :
    P ((s.run steps).1.builderOrNew name) := by
  induction steps generalizing s with
  | nil => exact first
  | cons step steps ih =>
      obtain ⟨m, a⟩ := step
      obtain ⟨now, later⟩ := List.forall_mem_cons.mp actions
      rw [run_cons]
      refine ih _ ?_ later
      rw [builderOrNew_step]
      by_cases same : name = m
      · subst same
        rw [if_pos rfl]
        exact kept _ _ _ a first (now rfl)
      · rw [if_neg same]
        exact first

/-- The steps of a run, each with its report. -/
def trace (steps : List (String × Action)) : List ((String × Action) × Report) :=
  steps.zip (s.run steps).2

theorem trace_cons (a : Action) (steps : List (String × Action)) :
    s.trace ((name, a) :: steps) =
      ((name, a), (s.step name a).2) :: (s.step name a).1.trace steps := rfl

/-- A step of a run starts where the steps before it lead. -/
theorem mem_trace {steps : List (String × Action)} {entry : (String × Action) × Report}
    (h : entry ∈ s.trace steps) :
    ∃ before after, steps = before ++ entry.1 :: after ∧
      entry.2 = ((s.run before).1.step entry.1.1 entry.1.2).2 := by
  induction steps generalizing s with
  | nil => cases h
  | cons step steps ih =>
      obtain ⟨name, a⟩ := step
      rw [trace_cons] at h
      obtain rfl | h := List.mem_cons.mp h
      · exact ⟨[], steps, rfl, rfl⟩
      · obtain ⟨before, after, rfl, report⟩ := ih _ h
        exact ⟨(name, a) :: before, after, rfl, report⟩

theorem trace_append (before after : List (String × Action)) :
    s.trace (before ++ after) = s.trace before ++ (s.run before).1.trace after := by
  rw [trace, run_append]
  exact List.zip_append (s.length_reports before).symm

end Session
end FluentSql
