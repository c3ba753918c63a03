import FluentSql.Proofs.ErrorOrigins

/-!
Connections and transactions. On an engine a request checks a connection out, uses it, and gives it
back at its very end, whatever fails in between; a write is committed before that, once its result
was looked at. On a live connection nothing is checked out, committed or given back.
-/

namespace FluentSql

/-- The events that are left to the owner of a connection. -/
def Event.isCustody : Event → Bool
  | .connect | .commit | .release => true
  | .exec .. | .closeResult | .closeProvider => false

/-- The requests that end with a commit. -/
def Request.IsWrite (q : Request) : Prop := q = .insert ∨ q = .execute

namespace Exchange

variable (x : Exchange) (sql : String) (parameters : Value) (r : Reply)

/-- The ways that an exchange can take on an engine, each with its events and with the exception
that ends it. -/
inductive Checkout : List Event → Option Raised → Prop
  | unavailable {e : Raised} : r.faultAt .get = some e → Checkout [] (some e)
  | denied {e : Raised} : r.faultAt .connect = some e → Checkout [.connect] (some e)
  | broken {used : List Event} {e : Raised} : r.faultAt .connect = none →
      x.onConnection sql parameters r = (used, some e) →
      Checkout (.connect :: used ++ [.release]) (some e)
  | looked {used : List Event} : r.faultAt .connect = none →
      x.onConnection sql parameters r = (used, none) → x.writes = false →
      Checkout (.connect :: used ++ [.release]) none
  | written {used : List Event} : r.faultAt .connect = none →
      x.onConnection sql parameters r = (used, none) → x.writes = true →
      Checkout (.connect :: used ++ [.commit, .release]) (r.faultAt .commit)

theorem onEngine_checkout :
    x.Checkout sql parameters r (x.onEngine sql parameters r).1
      (x.onEngine sql parameters r).2 := by
  simp only [onEngine]
  split
  · next e connect => exact .denied connect
  · next connect =>
      split
      · next used e ran => exact .broken connect ran
      · next used ran =>
          split
          · next writes => exact .written connect ran writes
          · next reads => exact .looked connect ran (by simpa using reads)

theorem run_checkout :
    x.Checkout sql parameters r (x.run .engine sql parameters r).1
      (x.run .engine sql parameters r).2 := by
  simp only [run]
  split
  · next e get => exact .unavailable get
  · exact x.onEngine_checkout sql parameters r

theorem onConnection_custody :
    ∀ event ∈ (x.onConnection sql parameters r).1, event.isCustody = false := by
  simp only [onConnection]
  split
  · simp [Event.isCustody]
  · split
    · simp [Event.isCustody]
    · split <;> simp [Event.isCustody]

theorem run_live_custody :
    ∀ event ∈ (x.run .live sql parameters r).1, event.isCustody = false := by
  simp only [run]
  split
  · exact List.forall_mem_nil _
  · exact x.onConnection_custody sql parameters r

variable {x sql parameters r}

/-- A connection is used for one execution, and its custody does not change meanwhile. -/
theorem onConnection_used {used : List Event} {fault : Option Raised}
    (h : x.onConnection sql parameters r = (used, fault)) :
    (∀ event ∈ used, event.isCustody = false) ∧ Event.execs used = [.exec sql parameters] := by
  have custody := x.onConnection_custody sql parameters r
  have execs := x.onConnection_execs sql parameters r
  rw [h] at custody execs
  exact ⟨custody, execs⟩

/-- An exchange on a connection goes to its end only past all of its points. -/
theorem onConnection_done {used : List Event} (h : x.onConnection sql parameters r = (used, none)) :
    ∀ p ∈ x.connectionPoints, r.faultAt p = none := by
  have fault := x.onConnection_fault sql parameters r
  rw [h] at fault
  exact List.findSome?_eq_none_iff.mp fault.symm

end Exchange

/-- The discipline of a request on an engine. It asks for one connection at most, before anything
else; what it obtains it gives back once and last; it executes once at most, and only on what it
obtained; it commits a write only, once its result was looked at; and a write that succeeds is
committed. -/
structure Orderly (writes : Prop) (r : Reply) (succeeded : Bool) (events : List Event) : Prop where
  asked : .connect ∈ events → ∃ after, events = .connect :: after ∧ .connect ∉ after
  released : .connect ∈ events → r.faultAt .connect = none →
    ∃ before, events = before ++ [.release] ∧ .release ∉ before
  obtained : .release ∈ events → .connect ∈ events ∧ r.faultAt .connect = none
  served : ∀ event ∈ events, event.isExec = true → .connect ∈ events ∧ r.faultAt .connect = none
  once : (Event.execs events).length ≤ 1
  committed : .commit ∈ events →
    writes ∧ r.faultAt .exec = none ∧ r.faultAt .read = none ∧
      ∃ before, events = before ++ [.commit, .release] ∧ .commit ∉ before ∧
        ∃ event ∈ before, event.isExec = true
  durable : succeeded = true → writes → .commit ∈ events ∧ r.faultAt .commit = none

namespace Orderly

variable {writes : Prop} {r : Reply} {succeeded : Bool} {events used : List Event}
  {sql : String} {parameters : Value}

/-- A request that obtains nothing, and is no write that succeeds. -/
theorem idle (free : ∀ event ∈ events, event = .closeProvider)
    (unwritten : succeeded = true → ¬ writes) : Orderly writes r succeeded events where
  asked h := nomatch free _ h
  released h := nomatch free _ h
  obtained h := nomatch free _ h
  served event h executes := by
    rw [free event h] at executes
    cases executes
  once := by
    have none : Event.execs events = [] :=
      List.filter_eq_nil_iff.mpr fun event h => by simp [free event h, Event.isExec, Event.sql?]
    simp [none]
  committed h := nomatch free _ h
  durable h w := absurd w (unwritten h)

/-- A request whose connection was refused. -/
theorem denied {e : Raised} (connect : r.faultAt .connect = some e)
    (unwritten : succeeded = true → ¬ writes) : Orderly writes r succeeded [.connect] where
  asked _ := ⟨[], rfl, List.not_mem_nil⟩
  released _ obtained := nomatch connect.symm.trans obtained
  obtained h := by simp at h
  served event h executes := by
    rw [List.mem_singleton.mp h] at executes
    cases executes
  once := Nat.zero_le 1
  committed h := by simp at h
  durable h w := absurd w (unwritten h)

/-- What is asked for first is asked for once, if neither its use nor the end asks again. -/
theorem asked_once (custody : ∀ event ∈ used, event.isCustody = false) {ending : List Event}
    (ends : .connect ∉ ending) :
    ∃ after, .connect :: used ++ ending = .connect :: after ∧ .connect ∉ after := by
  refine ⟨used ++ ending, rfl, fun h => ?_⟩
  obtain inside | atEnd := List.mem_append.mp h
  · exact absurd (custody _ inside) (by decide)
  · exact ends atEnd

variable (connect : r.faultAt .connect = none)
  (custody : ∀ event ∈ used, event.isCustody = false)
  (execs : Event.execs used = [.exec sql parameters])

include connect custody execs

/-- A connection that is given back without a commit. -/
theorem uncommitted (unwritten : succeeded = true → ¬ writes) :
    Orderly writes r succeeded (.connect :: used ++ [.release]) where
  asked _ := asked_once custody (by simp)
  served _ _ _ := ⟨List.mem_cons_self, connect⟩
  released _ _ := ⟨.connect :: used, rfl, by
    intro h
    cases h with
    | tail _ h => exact absurd (custody _ h) (by decide)⟩
  obtained _ := ⟨List.mem_cons_self, connect⟩
  once := by
    have one : Event.execs (.connect :: used ++ [.release]) = Event.execs used := by
      simp [Event.execs, Event.isExec, Event.sql?]
    rw [one, execs]
    exact Nat.le_refl 1
  committed h := by
    have inside : .commit ∈ used := by simpa using h
    exact absurd (custody _ inside) (by decide)
  durable h w := absurd w (unwritten h)

/-- A write whose result was looked at, with the commit before the connection is given back. -/
theorem written (isWrite : writes) (exec : r.faultAt .exec = none) (read : r.faultAt .read = none)
    (honest : succeeded = true → r.faultAt .commit = none) :
    Orderly writes r succeeded (.connect :: used ++ [.commit, .release]) where
  asked _ := asked_once custody (by simp)
  served _ _ _ := ⟨List.mem_cons_self, connect⟩
  released _ _ := ⟨.connect :: used ++ [.commit], by simp, by
    intro h
    have inside : .release ∈ used := by simpa using h
    exact absurd (custody _ inside) (by decide)⟩
  obtained _ := ⟨List.mem_cons_self, connect⟩
  once := by
    have one : Event.execs (.connect :: used ++ [.commit, .release]) = Event.execs used := by
      simp [Event.execs, Event.isExec, Event.sql?]
    rw [one, execs]
    exact Nat.le_refl 1
  committed _ := by
    refine ⟨isWrite, exec, read, .connect :: used, rfl, fun h => ?_, .exec sql parameters, ?_, rfl⟩
    · have inside : .commit ∈ used := by simpa using h
      exact absurd (custody _ inside) (by decide)
    · have inside : .exec sql parameters ∈ Event.execs used := by simp [execs]
      exact List.mem_cons_of_mem _ (List.mem_filter.mp inside).1
  durable h _ := ⟨by simp, honest h⟩

end Orderly

theorem Request.writes_exchange (q : Request) : q.exchange.writes = true ↔ q.IsWrite := by
  cases q <;> simp [exchange, IsWrite]

theorem Request.connectionPoints_write {q : Request} (h : q.exchange.writes = true) :
    q.exchange.connectionPoints = [.exec, .read] := by
  cases q with
  | insert | execute => rfl
  | _ => cases h

/-- An exchange keeps the discipline of a request that writes just when the exchange does, and that
succeeds with a write only when nothing was raised. -/
theorem Exchange.Checkout.orderly {x : Exchange} {writes : Prop} {sql : String}
    {parameters : Value} {r : Reply} {events : List Event} {fault : Option Raised}
    {succeeded : Bool} (h : x.Checkout sql parameters r events fault)
    (same : x.writes = true ↔ writes)
    (points : x.writes = true → x.connectionPoints = [.exec, .read])
    (honest : succeeded = true → writes → fault = none) : Orderly writes r succeeded events := by
  have failed {e : Raised} (ended : fault = some e) : succeeded = true → ¬ writes :=
    fun done w => nomatch ended.symm.trans (honest done w)
  cases h with
  | unavailable get => exact .idle (List.forall_mem_nil _) (failed rfl)
  | denied connect => exact .denied connect (failed rfl)
  | broken connect ran =>
      obtain ⟨custody, execs⟩ := onConnection_used ran
      exact .uncommitted connect custody execs (failed rfl)
  | looked connect ran reads =>
      obtain ⟨custody, execs⟩ := onConnection_used ran
      refine .uncommitted connect custody execs fun _ w => ?_
      rw [same.mpr w] at reads
      cases reads
  | written connect ran isWrite =>
      obtain ⟨custody, execs⟩ := onConnection_used ran
      have passed := onConnection_done ran
      rw [points isWrite] at passed
      exact .written connect custody execs (same.mp isWrite) (passed .exec (by simp))
        (passed .read (by simp)) fun done => honest done (same.mp isWrite)

namespace Executor

variable (x : Executor) (q : Request) (c : Compiled) (r : Reply)

theorem perform_orderly (engine : x.handle = .engine) :
    Orderly q.IsWrite r (x.perform q c r).1.outcome.isOk (x.perform q c r).1.events := by
  obtain ⟨parameters, events, honest⟩ | ⟨events, failed⟩ := x.perform_exchange q c r
  · rw [engine] at events honest
    rw [events]
    exact (q.exchange.run_checkout c.sql parameters r).orderly q.writes_exchange
      Request.connectionPoints_write fun succeeded _ => honest succeeded
  · rw [events, failed]
    exact .idle (List.forall_mem_nil _) nofun

theorem perform_live (live : x.handle = .live) :
    ∀ event ∈ (x.perform q c r).1.events, event.isCustody = false := by
  obtain ⟨parameters, events, -⟩ | ⟨events, -⟩ := x.perform_exchange q c r
  · rw [events, live]
    exact q.exchange.run_live_custody c.sql parameters r
  · rw [events]
    exact List.forall_mem_nil _

end Executor

namespace Session

variable (s : Session) (name : String)

/-- The step makes a request that ends with a commit. -/
def WritesAt (a : Action) : Prop := ∃ q c, s.handed? name a = some (q, c) ∧ q.IsWrite

theorem step_orderly {x : Executor} (executor : s.executor? = some x) (engine : x.handle = .engine)
    (a : Action) : Orderly (s.WritesAt name a) (Reply.next s.replies).1
      (s.step name a).2.outcome.isOk (s.step name a).2.events := by
  obtain ⟨q, c, countsRows, handed, outcome, events⟩ | ⟨handed, closes⟩ :=
    step_performs name executor a
  · have writes : s.WritesAt name a ↔ q.IsWrite := by simp [WritesAt, handed]
    have succeeded : (s.step name a).2.outcome.isOk =
        (x.perform q c (Reply.next s.replies).1).1.outcome.isOk := by
      rw [outcome]
      cases (x.perform q c (Reply.next s.replies).1).1.outcome <;> rfl
    rw [propext writes, succeeded, events]
    exact x.perform_orderly q c _ engine
  · exact .idle closes fun _ writes => by simp [WritesAt, handed] at writes

theorem step_live {x : Executor} (executor : s.executor? = some x) (live : x.handle = .live)
    (a : Action) : ∀ event ∈ (s.step name a).2.events, event.isCustody = false := by
  obtain ⟨q, c, countsRows, -, -, events⟩ | ⟨-, closes⟩ :=
    step_performs name executor a
  · rw [events]
    exact x.perform_live q c _ live
  · intro event h
    rw [closes event h]
    rfl

/-- After any steps, a step on an engine asks for one connection at most, before anything else, and
gives what it obtains back, once and last. It executes one text at most, and commits only writes, at
the end of what they do; a write that returns is committed. On a live connection no step obtains,
commits or gives back anything. -/
theorem connections_are_returned (s : Session) {p : Provider} (given : s.provider = some p)
    (steps : List (String × Action)) (name : String) (a : Action) :
    let now := (s.run steps).1
    let report := (now.step name a).2
    (p.handle = .engine → Orderly (now.WritesAt name a) (Reply.next now.replies).1
        report.outcome.isOk report.events) ∧
      (p.handle = .live → ∀ event ∈ report.events,
        event ≠ .connect ∧ event ≠ .commit ∧ event ≠ .release) := by
  intro now report
  have executor : now.executor? = some ⟨p.handle, .text now.compiler.dialect⟩ := by
    rw [executor?, (s.run_keeps steps).2, given]
    rfl
  refine ⟨fun engine => now.step_orderly name executor engine a, fun live event h => ?_⟩
  have custody := now.step_live name executor live a event h
  refine ⟨?_, ?_, ?_⟩ <;> rintro rfl <;> cases custody

/-- A write whose commit is lost gives its connection back all the same. -/
theorem connections_are_returned_of_lost_commit :
    let report := (losingCommit.step "q" (.finish .delete)).2
    losingCommit.provider = some { handle := .engine } ∧
      report.events = [.connect, .exec "DELETE FROM t" .none, .commit, .release] ∧
      Orderly (losingCommit.WritesAt "q" (.finish .delete))
        { fault := some (.commit, ⟨"OperationalError", "lost", false⟩) } false report.events := by
  intro report
  obtain ⟨orderly, -⟩ := losingCommit.connections_are_returned rfl [] "q" (.finish .delete)
  have failed : report.outcome.isOk = false := by decide +kernel
  have orderly := orderly rfl
  rw [show ((losingCommit.run []).1.step "q" (.finish .delete)).2 = report from rfl, failed]
    at orderly
  exact ⟨rfl, rfl, orderly⟩

end Session
end FluentSql
