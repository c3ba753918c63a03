import FluentSql.Executor
import FluentSql.Proofs.Outcome

/-!
Exchanges with a database, and the requests that make them. An exchange passes its points in a fixed
order and ends at the first one that fails; it executes one text at most. A request that its checks
let through makes one exchange, and every failure of that exchange ends the request.
-/

namespace FluentSql

/-- The text that an event executes. -/
def Event.sql? : Event → Option String
  | .exec sql _ => some sql
  | _ => none

theorem Event.exec_of_sql {events : List Event} {sql : String}
    (h : some sql ∈ events.map sql?) : ∃ parameters, .exec sql parameters ∈ events := by
  obtain ⟨event, member, text⟩ := List.mem_map.mp h
  cases event with
  | exec sql' parameters =>
      cases text
      exact ⟨parameters, member⟩
  | _ => cases text

def Event.isExec (e : Event) : Bool := e.sql?.isSome

/-- The events that execute something. -/
def Event.execs (events : List Event) : List Event := events.filter isExec

/-- Whether an exchange that is answered with a reply gets as far as executing its text. -/
def Reply.reaches (r : Reply) : Handle → Bool
  | .live => (r.faultAt .get).isNone
  | .engine => (r.faultAt .get).isNone && (r.faultAt .connect).isNone

/-- Where nothing is raised, every exchange executes its text. -/
theorem Reply.reaches_of_quiet {r : Reply} (quiet : r.fault = none) (handle : Handle) :
    r.reaches handle = true := by
  have calm (p : Point) : r.faultAt p = none := by rw [Reply.faultAt, quiet]
  cases handle with
  | live => rw [reaches, calm]; rfl
  | engine => rw [reaches, calm, calm]; rfl

namespace Exchange

/-- The points that an exchange passes on a connection, in order. -/
def connectionPoints (x : Exchange) : List Point := .exec :: x.resultPoint?.toList

/-- The points that an exchange passes when nothing fails, in order. -/
def points (x : Exchange) : Handle → List Point
  | .live => .get :: x.connectionPoints
  | .engine => [.get, .connect] ++ x.connectionPoints ++ if x.writes then [.commit] else []

variable (x : Exchange) (handle : Handle) (sql : String) (parameters : Value) (r : Reply)

theorem onConnection_fault :
    (x.onConnection sql parameters r).2 = x.connectionPoints.findSome? r.faultAt := by
  simp only [onConnection, connectionPoints, List.findSome?_cons]
  cases r.faultAt .exec with
  | some e => rfl
  | none =>
      cases x.resultPoint? with
      | none => rfl
      | some p => cases result : r.faultAt p <;> simp [result]

/-- The exception that ends an exchange is that of the first point that fails. -/
theorem run_fault :
    (x.run handle sql parameters r).2 = (x.points handle).findSome? r.faultAt := by
  have connection := x.onConnection_fault sql parameters r
  cases handle with
  | live =>
      simp only [run, points, List.findSome?_cons]
      cases r.faultAt .get with
      | some e => rfl
      | none => exact connection
  | engine =>
      simp only [run, points, onEngine, List.findSome?_append, List.findSome?_cons, ← connection]
      cases r.faultAt .get with
      | some e => rfl
      | none =>
          cases r.faultAt .connect with
          | some e => rfl
          | none =>
              obtain ⟨events, fault⟩ := x.onConnection sql parameters r
              cases fault with
              | some e => rfl
              | none =>
                  cases x.writes with
                  | false => rfl
                  | true => cases hcommit : r.faultAt .commit <;> simp [hcommit]

theorem onConnection_execs :
    Event.execs (x.onConnection sql parameters r).1 = [.exec sql parameters] := by
  simp only [onConnection]
  split
  · rfl
  · split
    · rfl
    · split <;> rfl

theorem onEngine_execs (connected : r.faultAt .connect = none) :
    Event.execs (x.onEngine sql parameters r).1 = [.exec sql parameters] := by
  have connection := x.onConnection_execs sql parameters r
  simp only [onEngine, connected]
  split
  · next events e h =>
      rw [h] at connection
      simpa [Event.execs, Event.isExec, Event.sql?] using connection
  · next events h =>
      rw [h] at connection
      split <;> simpa [Event.execs, Event.isExec, Event.sql?] using connection

/-- An exchange executes its text once, if it gets that far, and nothing else. -/
theorem run_execs_eq :
    Event.execs (x.run handle sql parameters r).1 =
      if r.reaches handle then [.exec sql parameters] else [] := by
  cases got : r.faultAt .get with
  | some e =>
      cases handle <;> simp only [run, Reply.reaches, got] <;> rfl
  | none =>
      cases handle with
      | live =>
          simp only [run, Reply.reaches, got]
          exact x.onConnection_execs sql parameters r
      | engine =>
          cases connected : r.faultAt .connect with
          | some e =>
              simp only [run, onEngine, Reply.reaches, got, connected]
              rfl
          | none =>
              simp only [run, Reply.reaches, got, connected]
              exact x.onEngine_execs sql parameters r connected

end Exchange

/-- Whatever has a count can be handed to a database. -/
theorem Compiled.bindParameters_ok {parameters : Value} {count : Nat}
    (h : Compiled.count parameters = .ok count) :
    ∃ bound, bindParameters parameters = .ok bound := by
  simp only [Compiled.count, bindParameters] at h ⊢
  split
  · exact ⟨_, rfl⟩
  · next truthy =>
      rw [if_neg truthy] at h
      cases parameters with
      | map | list | tuple | text | bytes => exact ⟨_, rfl⟩
      | _ => cases h

namespace Executor

variable (x : Executor) (q : Request) (c : Compiled)

theorem attributesOf_map (entries : List (Value × Value)) :
    ∃ given, Trace.attributesOf (.map entries) = .ok given := by
  by_cases truthy : (Value.map entries).truthy = true
  · exact ⟨_, by rw [Trace.attributesOf, truthy]; rfl⟩
  · exact ⟨[], by rw [Trace.attributesOf, Bool.eq_false_iff.mpr truthy]; rfl⟩

/-- The attributes of a request's span can always be found or done without. -/
theorem found_ok : ∃ attributes, (x.found q c).attributes = .ok attributes := by
  have fixed : Trace.attributesOf .none = .ok [] := rfl
  cases h : spanAttributes x.system (.text q.name) c with
  -- attributes that cannot be told are left out, and the request goes on
  | error e =>
      simp only [found, Trace.attributes, fixed, h]
      exact ⟨_, rfl⟩
  | ok attributes =>
      obtain ⟨given, named⟩ : ∃ given, Trace.attributesOf (Fields.toValue attributes) = .ok given :=
        attributesOf_map _
      simp only [found, Trace.attributes, fixed, h, named]
      exact ⟨_, rfl⟩

/-- A span does not change the outcome of its request. -/
theorem run_outcome (replies : List Reply) :
    (x.run q c replies).outcome = (x.perform q c (Reply.next replies).1).1.outcome := by
  obtain ⟨attributes, hfound⟩ := x.found_ok q c
  simp only [run, Trace.around, hfound]
  split
  · next h => exact h.symm
  · next h => exact h.symm

/-- A request that a check stops fails in the same way whatever the database would reply. -/
theorem perform_stopped (stopped : ∀ count, q.checkFirst = .ok () → c.paramCount ≠ .ok count) :
    ∃ e, ∀ r, x.perform q c r = ({ outcome := .error e }, false) := by
  cases first : q.checkFirst with
  | error e => exact ⟨e, fun r => by simp only [perform, first]⟩
  | ok _ =>
      cases counted : c.paramCount with
      | error e => exact ⟨.raised e, fun r => by simp only [perform, first, counted]⟩
      | ok count => exact absurd counted (stopped count first)

/-- A request that its checks let through makes its exchange, which fails or is done. -/
theorem perform_passed {count : Nat} (first : q.checkFirst = .ok ())
    (counted : c.paramCount = .ok count) (r : Reply) :
    ∃ parameters events,
      (∃ e, q.exchange.run x.handle c.sql parameters r = (events, some e) ∧
        x.perform q c r = (x.performFailed q c count events e, true)) ∨
      (q.exchange.run x.handle c.sql parameters r = (events, none) ∧
        x.perform q c r = (x.performDone q c count events r, true)) := by
  obtain ⟨parameters, bound⟩ := Compiled.bindParameters_ok counted
  cases ran : q.exchange.run x.handle c.sql parameters r with
  | mk events fault =>
      refine ⟨parameters, events, ?_⟩
      cases fault with
      | some e => exact .inl ⟨e, ran, by simp only [perform, first, counted, bound, ran]⟩
      | none => exact .inr ⟨ran, by simp only [perform, first, counted, bound, ran]⟩

theorem performFailed_events (count : Nat) (events : List Event) (e : Raised) :
    (x.performFailed q c count events e).events = events := by
  simp only [performFailed]
  split <;> rfl

theorem performDone_events (count : Nat) (events : List Event) (r : Reply) :
    (x.performDone q c count events r).events = events := by
  simp only [performDone]
  split <;> rfl

theorem performFailed_isOk (count : Nat) (events : List Event) (e : Raised) :
    (x.performFailed q c count events e).outcome.isOk = false := by
  simp only [performFailed]
  split <;> rfl

/-- What a request leaves is what its exchange leaves, and it fails if that does; a request that is
stopped by a check leaves nothing and fails. -/
theorem perform_exchange (r : Reply) :
    (∃ parameters, (x.perform q c r).1.events = (q.exchange.run x.handle c.sql parameters r).1 ∧
      ((x.perform q c r).1.outcome.isOk = true →
        (q.exchange.run x.handle c.sql parameters r).2 = none)) ∨
    (x.perform q c r).1.events = [] ∧ (x.perform q c r).1.outcome.isOk = false := by
  by_cases passes : ∃ count, q.checkFirst = .ok () ∧ c.paramCount = .ok count
  · obtain ⟨count, first, counted⟩ := passes
    obtain ⟨parameters, events, ⟨e, ran, failed⟩ | ⟨ran, done⟩⟩ :=
      x.perform_passed q c first counted r
    · refine .inl ⟨parameters, ?_, ?_⟩
      · rw [failed, performFailed_events, ran]
      · rw [failed, performFailed_isOk]
        exact nofun
    · refine .inl ⟨parameters, ?_, fun _ => by rw [ran]⟩
      rw [done, performDone_events, ran]
  · obtain ⟨e, stopped⟩ := x.perform_stopped q c fun count first counted =>
      passes ⟨count, first, counted⟩
    rw [stopped]
    exact .inr ⟨rfl, rfl⟩

/-- A request that its checks let through executes its text with its parameters as they are bound,
if its exchange gets that far. -/
theorem perform_execs_eq {count : Nat} {parameters : Value} (first : q.checkFirst = .ok ())
    (counted : c.paramCount = .ok count)
    (bound : Compiled.bindParameters c.parameters = .ok parameters) (r : Reply) :
    Event.execs (x.perform q c r).1.events =
      if r.reaches x.handle then [.exec c.sql parameters] else [] := by
  rw [← q.exchange.run_execs_eq]
  simp only [perform, first, counted, bound]
  split
  · next events e h => rw [performFailed_events, h]
  · next events h => rw [performDone_events, h]

/-- A request executes nothing but its text with its parameters as they are bound, and that once at
most. -/
theorem perform_execs (r : Reply) :
    Event.execs (x.perform q c r).1.events = [] ∨
      ∃ parameters, Compiled.bindParameters c.parameters = .ok parameters ∧
        Event.execs (x.perform q c r).1.events = [.exec c.sql parameters] := by
  by_cases passes : ∃ count, q.checkFirst = .ok () ∧ c.paramCount = .ok count
  · obtain ⟨count, first, counted⟩ := passes
    obtain ⟨parameters, bound⟩ := Compiled.bindParameters_ok counted
    rw [x.perform_execs_eq q c first counted bound]
    split
    · exact .inr ⟨parameters, bound, rfl⟩
    · exact .inl rfl
  · obtain ⟨e, stopped⟩ := x.perform_stopped q c fun count first counted =>
      passes ⟨count, first, counted⟩
    rw [stopped]
    exact .inl rfl

end Executor
end FluentSql
