import FluentSql.Connection
import FluentSql.Proofs.Checkouts

/-!
A ledger of engines. Whatever is asked of a connection, and whatever fails on the way, the engines
that were made and not disposed of are the current one, or none when there is none. An engine is
only ever replaced by a new one that is already there; an attempt that fails changes nothing; and a
test gives back what it obtained and keeps the engine.
-/

namespace FluentSql

/-- The result changed by a function, with everything on the way to it. -/
def Lifecycle.map {α β : Type} (f : α → β) (l : Lifecycle α) : Lifecycle β :=
  ⟨l.outcome.map f, l.events, l.records⟩

theorem Lifecycle.events_map {α β : Type} (f : α → β) (l : Lifecycle α) :
    (l.map f).events = l.events := rfl

namespace EngineEvent

def isCreate : EngineEvent → Bool
  | .create .. => true
  | _ => false

def disposed? : EngineEvent → Option Nat
  | .dispose number => some number
  | _ => none

def database? : EngineEvent → Option Event
  | .database event => some event
  | _ => none

end EngineEvent

namespace Connection

/-- What can be asked of a connection. -/
inductive Use where
  | connect (arguments : List (String × Value))
  | get
  | test
  | close

/-- What a use gives. -/
inductive Given where
  | engine (number : Nat)
  | answered (success : Bool)
  | nothing

variable (c : Connection)

/-- One use, with addresses as they are read at that time. -/
def use (read : AddressReader) : Use → Connection × Lifecycle Given
  | .connect arguments => (c.connectNamed arguments read).map id (.map .engine)
  | .get => (c.get read).map id (.map .engine)
  | .test => (c.test read).map id (.map .answered)
  | .close => (c.close.1, ⟨.ok .nothing, c.close.2.1, c.close.2.2⟩)

/-- The number of the engine that there is now. -/
def current : Option Nat := c.engine.map (·.number)

/-- The reply to what is asked of the database next: that of the engine, or else that of the engine
to be made. -/
def nextReply : Reply :=
  match c.engine, (nextMaking c.makings).1 with
  | some e, _ => (Reply.next e.replies).1
  | none, .made replies => (Reply.next replies).1
  | none, .failed _ => {}

/-- The engines disposed of in a use, in order. -/
def disposals (events : List EngineEvent) : List Nat := events.filterMap EngineEvent.disposed?

/-- The engines made in a use, in order. Every attempt takes the next outcome of a making, and the
engines of those that do not fail are numbered on. -/
def creations (makings : List Making) (made : Nat) : List EngineEvent → List Nat
  | [] => []
  | .create .. :: rest =>
    match (nextMaking makings).1 with
    | .made _ => (made + 1) :: creations (nextMaking makings).2 (made + 1) rest
    | .failed _ => creations (nextMaking makings).2 made rest
  | .dispose _ :: rest => creations makings made rest
  | .database _ :: rest => creations makings made rest

structure Ledger where
  created : List Nat := []
  disposed : List Nat := []

/-- The ledger after a use with these events. -/
def Ledger.after (l : Ledger) (events : List EngineEvent) : Ledger :=
  ⟨l.created ++ creations c.makings c.made events, l.disposed ++ disposals events⟩

/-- Uses one after the other, with the ledger that is kept of them. -/
def run (c : Connection) (l : Ledger) : List (AddressReader × Use) → Connection × Ledger
  | [] => (c, l)
  | (read, u) :: rest => run (c.use read u).1 (l.after c (c.use read u).2.events) rest

/-- Engines are numbered as they are made, and each one is disposed of or current, not both. -/
structure Settled (l : Ledger) : Prop where
  numbered : l.created = List.range' 1 c.made
  balanced : (l.disposed ++ c.current.toList).Perm l.created

variable {c} {l : Ledger} {events : List EngineEvent}

theorem disposals_append (events more : List EngineEvent) :
    disposals (events ++ more) = disposals events ++ disposals more :=
  List.filterMap_append

theorem disposals_database (used : List Event) :
    disposals (used.map EngineEvent.database) = [] := by
  induction used with
  | nil => rfl
  | cons event used ih => exact ih

theorem disposals_dispose (numbers : List Nat) : disposals (numbers.map .dispose) = numbers := by
  induction numbers with
  | nil => rfl
  | cons number numbers ih => exact congrArg (number :: ·) ih

theorem database_database (used : List Event) :
    (used.map EngineEvent.database).filterMap EngineEvent.database? = used := by
  induction used with
  | nil => rfl
  | cons event used ih => exact congrArg (event :: ·) ih

theorem created_database (used : List Event) :
    (used.map EngineEvent.database).any EngineEvent.isCreate = false := by
  induction used with
  | nil => rfl
  | cons event used ih => exact ih

theorem creations_database (makings : List Making) (made : Nat) (used : List Event) :
    creations makings made (used.map .database) = [] := by
  induction used with
  | nil => rfl
  | cons event used ih => exact ih

theorem creations_dispose (makings : List Making) (made : Nat) (numbers : List Nat) :
    creations makings made (numbers.map .dispose) = [] := by
  induction numbers with
  | nil => rfl
  | cons number numbers ih => exact ih

theorem creations_append_database (makings : List Making) (made : Nat)
    (events : List EngineEvent) (used : List Event) :
    creations makings made (events ++ used.map .database) = creations makings made events := by
  induction events generalizing makings made with
  | nil => exact creations_database makings made used
  | cons event events ih =>
      cases event with
      | create url options =>
          simp only [List.cons_append, creations]
          split
          · rw [ih]
          · exact ih _ _
      | dispose | database => exact ih makings made

/-- What is asked of a database makes no engine and disposes of none. -/
theorem Ledger.after_database (l : Ledger) (c : Connection) (events : List EngineEvent)
    (used : List Event) : l.after c (events ++ used.map .database) = l.after c events := by
  simp only [after, creations_append_database, disposals_append, disposals_database,
    List.append_nil]

theorem Ledger.after_nothing (l : Ledger) (c : Connection) : l.after c [] = l := by
  simp only [after, creations, disposals, List.filterMap_nil, List.append_nil]

namespace Settled

theorem start (settings : ConnectionSettings) (makings : List Making) :
    Settled { settings := settings, makings := makings } {} where
  numbered := rfl
  balanced := .refl []

/-- A change that concerns neither the engine nor the count of engines. -/
theorem same {c' : Connection} (h : c.Settled l) (current : c'.current = c.current)
    (made : c'.made = c.made) : c'.Settled l where
  numbered := by rw [made]; exact h.numbered
  balanced := by rw [current]; exact h.balanced

theorem outstanding (h : c.Settled l) (n : Nat) :
    n ∈ l.created ∧ n ∉ l.disposed ↔ c.current = some n := by
  have distinct : (l.disposed ++ c.current.toList).Nodup := by
    rw [h.balanced.nodup_iff, h.numbered]
    exact List.nodup_range'
  rw [← h.balanced.mem_iff, List.mem_append, Option.mem_toList]
  constructor
  · rintro ⟨disposed | current, kept⟩
    · exact absurd disposed kept
    · exact current
  · intro current
    refine ⟨.inr current, fun disposed => ?_⟩
    exact (List.nodup_append.mp distinct).2.2 n disposed n (by simp [current]) rfl

theorem disposed_once (h : c.Settled l) : l.disposed.Nodup := by
  have distinct : l.created.Nodup := by
    rw [h.numbered]
    exact List.nodup_range'
  exact (List.nodup_append.mp (h.balanced.nodup_iff.mpr distinct)).1

theorem disposed_created (h : c.Settled l) : l.disposed ⊆ l.created :=
  List.Subset.trans (List.subset_append_left _ _) h.balanced.subset

end Settled

/-- What comes of an attempt to make an engine. Either the arguments are of no use, or the next
making fails, or an engine is made and put in the place of the one before. -/
inductive Attempted (c : Connection) : Connection × Lifecycle Nat → Prop
  | unplanned {e : Error} : Attempted c (c, ⟨.error e, [], []⟩)
  | failed {e : Error} {raised : Raised} {url : Url} {options : List (String × Value)}
      (making : (nextMaking c.makings).1 = .failed raised) :
      Attempted c ({ c with makings := (nextMaking c.makings).2 },
        ⟨.error e, [.create url options], []⟩)
  | made {replies : List Reply} {url : Url} {options : List (String × Value)}
      {records : List Log.Record} (making : (nextMaking c.makings).1 = .made replies) :
      Attempted c
        ({ settings := c.settings
           engine := some ⟨c.made + 1, replies⟩
           backend := some url.backend
           made := c.made + 1
           makings := (nextMaking c.makings).2 },
          ⟨.ok (c.made + 1), .create url options :: c.current.toList.map .dispose, records⟩)

theorem close_spec (c : Connection) :
    c.close.1 = { c with engine := none } ∧ c.close.2.1 = c.current.toList.map .dispose := by
  cases h : c.engine with
  | none =>
      have same : { c with engine := none } = c := by rw [← h]
      simp [close, current, h, same]
  | some e => simp [close, current, h]

theorem make_attempted (c : Connection) (url : Url) (options : List (String × Value)) :
    c.Attempted (c.make url options) := by
  cases making : (nextMaking c.makings).1 with
  | failed raised =>
      have made : c.make url options =
          ({ c with makings := (nextMaking c.makings).2 },
            ⟨.error (makingError (some url.backend) raised), [.create url options], []⟩) := by
        simp only [make, making]
      rw [made]
      exact .failed making
  | made replies =>
      obtain ⟨closed, disposed⟩ :=
        close_spec { c with makings := (nextMaking c.makings).2, made := c.made + 1 }
      simp only [make, making]
      rw [closed, disposed]
      exact .made making

theorem connect_attempted (c : Connection) (a : Arguments) (read : AddressReader) :
    c.Attempted (c.connect a read) := by
  simp only [connect]
  split
  · exact .unplanned
  · split
    · exact .unplanned
    · exact c.make_attempted _ _

theorem connectNamed_attempted (c : Connection) (data : List (String × Value))
    (read : AddressReader) : c.Attempted (c.connectNamed data read) := by
  simp only [connectNamed]
  split
  · exact c.connect_attempted _ read
  · exact .unplanned

theorem Attempted.settled {result : Connection × Lifecycle Nat} (h : c.Attempted result)
    (before : c.Settled l) : result.1.Settled (l.after c result.2.events) := by
  cases h with
  | unplanned =>
      rw [l.after_nothing]
      exact before
  | @failed e raised url options making =>
      have same : l.after c [.create url options] = l := by
        simp only [Ledger.after, creations, making, List.append_nil]
        exact congrArg _ (List.append_nil _)
      rw [same]
      exact before.same rfl rfl
  | @made replies url options records making =>
      -- the new engine is entered as made, and the one before as disposed of
      have entered : l.after c (.create url options :: c.current.toList.map .dispose) =
          ⟨l.created ++ [c.made + 1], l.disposed ++ c.current.toList⟩ := by
        simp only [Ledger.after, creations, making, creations_dispose]
        exact congrArg _ (congrArg _ (disposals_dispose _))
      rw [entered]
      refine ⟨?_, ?_⟩
      · rw [before.numbered, List.range'_1_concat, Nat.add_comm 1]
      · exact before.balanced.append_right _

/-- Asked for an engine, a connection gives the one it has, or attempts to make one. -/
theorem get_cases (c : Connection) (read : AddressReader) :
    (∃ e, c.engine = some e ∧ c.get read = (c, ⟨.ok e.number, [], []⟩)) ∨
      (c.engine = none ∧ c.Attempted (c.get read)) := by
  cases h : c.engine with
  | none =>
      have made : c.get read = c.connect {} read := by simp only [get, h]
      rw [made]
      exact .inr ⟨rfl, c.connect_attempted {} read⟩
  | some e => exact .inl ⟨e, rfl, by simp only [get, h]⟩

theorem get_settled (before : c.Settled l) (read : AddressReader) :
    (c.get read).1.Settled (l.after c (c.get read).2.events) := by
  obtain ⟨e, -, given⟩ | ⟨-, attempted⟩ := c.get_cases read
  · rw [given, l.after_nothing]
    exact before
  · exact attempted.settled before

/-- Nothing is disposed of on demand. -/
theorem disposals_get (c : Connection) (read : AddressReader) :
    disposals (c.get read).2.events = [] := by
  obtain ⟨e, -, given⟩ | ⟨none, attempted⟩ := c.get_cases read
  · rw [given]
    rfl
  · generalize c.get read = result at attempted
    cases attempted with
    | unplanned | failed => rfl
    | made =>
        rw [current, none]
        rfl

theorem current_get (c : Connection) (read : AddressReader) {n : Nat}
    (given : (c.get read).2.outcome = .ok n) : (c.get read).1.current = some n := by
  obtain ⟨e, has, same⟩ | ⟨-, attempted⟩ := c.get_cases read
  · rw [same] at given ⊢
    cases given
    rw [current, has]
    rfl
  · generalize c.get read = result at attempted given
    cases attempted with
    | unplanned | failed => cases given
    | made =>
        cases given
        rfl

/-- The exchange of a test. -/
def testExchange (r : Reply) : List Event × Option Raised :=
  Exchange.onEngine { fetches := false } testStatement .none r

theorem testEngine_spec (c : Connection) (e : Engine) :
    (c.testEngine e).1 = { c with engine := some { e with replies := (Reply.next e.replies).2 } } ∧
      (c.testEngine e).2.events = (testExchange (Reply.next e.replies).1).1.map .database := by
  simp only [testEngine, testExchange]
  split
  · exact ⟨rfl, rfl⟩
  · split
    · exact ⟨rfl, rfl⟩
    · exact ⟨rfl, rfl⟩

/-- A test asks for the engine and then, when it was given one, asks the engine itself. -/
theorem test_spec (c : Connection) (read : AddressReader) :
    ∃ used : List Event,
      (c.test read).2.events = (c.get read).2.events ++ used.map .database ∧
      (c.test read).1.current = (c.get read).1.current ∧
      (c.test read).1.made = (c.get read).1.made ∧
      (used = [] ∨ ∃ e, (c.get read).1.engine = some e ∧
        used = (testExchange (Reply.next e.replies).1).1) := by
  cases got : c.get read with
  | mk c' asked =>
      obtain ⟨outcome, events, records⟩ := asked
      cases outcome with
      | error e =>
          have stopped : c.test read = (c', ⟨.error e, events, records⟩) := by
            simp only [test, got]
          rw [stopped]
          exact ⟨[], (List.append_nil events).symm, rfl, rfl, .inl rfl⟩
      | ok n =>
          have has := c.current_get read (n := n) (by rw [got])
          rw [got] at has
          obtain ⟨e, engine, -⟩ := Option.map_eq_some_iff.mp has
          change c'.engine = some e at engine
          obtain ⟨tested, asked⟩ := c'.testEngine_spec e
          have went : (c.test read).1 = (c'.testEngine e).1 ∧
              (c.test read).2.events = events ++ (c'.testEngine e).2.events := by
            simp only [test, got, engine, and_self]
          rw [went.1, went.2, asked, tested]
          refine ⟨_, rfl, ?_, rfl, .inr ⟨e, engine, rfl⟩⟩
          rw [current, current, engine]
          rfl

theorem test_settled (before : c.Settled l) (read : AddressReader) :
    (c.test read).1.Settled (l.after c (c.test read).2.events) := by
  obtain ⟨used, events, same, made, -⟩ := c.test_spec read
  rw [events, l.after_database]
  exact (get_settled before read).same same made

/-- The engine that is given on demand replies next. -/
theorem nextReply_get (c : Connection) (read : AddressReader) {e : Engine}
    (engine : (c.get read).1.engine = some e) : c.nextReply = (Reply.next e.replies).1 := by
  obtain ⟨e', -, given⟩ | ⟨none, attempted⟩ := c.get_cases read
  · rw [given] at engine
    rw [nextReply, engine]
  · generalize c.get read = result at attempted engine
    cases attempted with
    | unplanned | failed =>
        rw [none] at engine
        cases engine
    | made making =>
        cases engine
        rw [nextReply, none, making]

/-- A connection that is asked for an engine asks no database for anything. -/
theorem database_get (c : Connection) (read : AddressReader) :
    (c.get read).2.events.filterMap EngineEvent.database? = [] := by
  obtain ⟨e, -, given⟩ | ⟨none, attempted⟩ := c.get_cases read
  · rw [given]
    rfl
  · generalize c.get read = result at attempted
    cases attempted with
    | unplanned | failed => rfl
    | made =>
        rw [current, none]
        rfl

theorem testExchange_orderly (r : Reply) (succeeded : Bool) :
    Orderly False r succeeded (testExchange r).1 := by
  have checkout := Exchange.onEngine_checkout { fetches := false } testStatement .none r
  apply checkout.orderly
  · exact iff_of_false nofun id
  · exact nofun
  · exact fun _ => nofun

/-- A connection that fails leaves everything as it was. One that succeeds makes an engine, and then
disposes of the one before. -/
structure Connects (c c' : Connection) (l : Lifecycle Given) : Prop where
  failed : ∀ e, l.outcome = .error e →
    c'.engine = c.engine ∧ c'.backend = c.backend ∧ disposals l.events = [] ∧
      creations c.makings c.made l.events = []
  replaced : ∀ given, l.outcome = .ok given →
    ∃ url options, l.events = .create url options :: c.current.toList.map .dispose ∧
      creations c.makings c.made l.events = [c.made + 1] ∧ given = .engine (c.made + 1) ∧
      c'.current = some (c.made + 1) ∧ c'.backend = some url.backend

/-- The current engine is given as it is; one is made only when there is none, by a connection. -/
structure Gets (c c' : Connection) (l : Lifecycle Given) : Prop where
  same : ∀ n, c.current = some n → c' = c ∧ l.outcome = .ok (.engine n) ∧ l.events = []
  lazily : l.events.any EngineEvent.isCreate = true → c.current = none
  missing : c.current = none → c.Connects c' l
  failed : ∀ e, l.outcome = .error e → c'.engine = c.engine ∧ c'.backend = c.backend
  given : ∀ result, l.outcome = .ok result →
    ∃ n, result = .engine n ∧ c'.current = some n
  kept : disposals l.events = []

/-- A test gives back what it obtains, and keeps the engine. -/
structure Tests (c c' : Connection) (l : Lifecycle Given) : Prop where
  released : Orderly False c.nextReply l.outcome.isOk
    (l.events.filterMap EngineEvent.database?)
  same : ∀ n, c.current = some n → c'.current = some n
  lazily : l.events.any EngineEvent.isCreate = true → c.current = none
  kept : disposals l.events = []

/-- What becomes of the engine in a use. -/
def Keeps (c c' : Connection) (l : Lifecycle Given) : Use → Prop
  | .connect _ => c.Connects c' l
  | .get => c.Gets c' l
  | .test => c.Tests c' l
  | .close => c'.current = none ∧ disposals l.events = c.current.toList

theorem Attempted.connects {result : Connection × Lifecycle Nat} (h : c.Attempted result) :
    c.Connects result.1 (result.2.map .engine) := by
  cases h with
  | unplanned => exact ⟨fun _ _ => ⟨rfl, rfl, rfl, rfl⟩, nofun⟩
  | failed making =>
      refine ⟨fun _ _ => ⟨rfl, rfl, rfl, ?_⟩, nofun⟩
      simp only [Lifecycle.events_map, creations, making]
  | @made replies url options records making =>
      refine ⟨nofun, fun given outcome => ⟨url, options, rfl, ?_, ?_, rfl, rfl⟩⟩
      · simp only [Lifecycle.events_map, creations, making, creations_dispose]
      · cases outcome
        rfl

/-- An engine that was made was missing. -/
theorem current_of_created (c : Connection) (read : AddressReader)
    (created : (c.get read).2.events.any EngineEvent.isCreate = true) : c.current = none := by
  obtain ⟨e, -, given⟩ | ⟨none, -⟩ := c.get_cases read
  · rw [given] at created
    cases created
  · rw [current, none]
    rfl

theorem get_gets (c : Connection) (read : AddressReader) :
    c.Gets (c.get read).1 ((c.get read).2.map .engine) where
  same n has := by
    obtain ⟨e, engine, given⟩ | ⟨none, -⟩ := c.get_cases read
    · rw [current, engine] at has
      cases has
      rw [given]
      exact ⟨rfl, rfl, rfl⟩
    · rw [current, none] at has
      cases has
  lazily := c.current_of_created read
  missing none := by
    obtain ⟨e, engine, -⟩ | ⟨-, attempted⟩ := c.get_cases read
    · rw [current, engine] at none
      cases none
    · exact attempted.connects
  failed e outcome := by
    obtain ⟨e', -, given⟩ | ⟨-, attempted⟩ := c.get_cases read
    · rw [given] at outcome
      cases outcome
    · obtain ⟨engine, backend, -⟩ := attempted.connects.failed e outcome
      exact ⟨engine, backend⟩
  given result outcome := by
    cases got : (c.get read).2.outcome with
    | error e =>
        rw [Lifecycle.map, got] at outcome
        cases outcome
    | ok n =>
        rw [Lifecycle.map, got] at outcome
        cases outcome
        exact ⟨n, rfl, c.current_get read got⟩
  kept := c.disposals_get read

theorem test_tests (c : Connection) (read : AddressReader) :
    c.Tests (c.test read).1 ((c.test read).2.map .answered) := by
  obtain ⟨used, events, current, -, asked⟩ := c.test_spec read
  refine ⟨?_, fun n has => ?_, fun created => ?_, ?_⟩
  · have exchanged : (c.test read).2.events.filterMap EngineEvent.database? = used := by
      rw [events, List.filterMap_append, c.database_get, database_database]
      rfl
    rw [Lifecycle.events_map, exchanged]
    obtain nothing | ⟨e, engine, exchange⟩ := asked
    · rw [nothing]
      exact .idle (List.forall_mem_nil _) fun _ => id
    · rw [exchange, c.nextReply_get read engine]
      exact testExchange_orderly _ _
  · rw [current, ((c.get_gets read).same n has).1]
    exact has
  · apply c.current_of_created read
    rw [Lifecycle.events_map, events, List.any_append, created_database, Bool.or_false] at created
    exact created
  · rw [Lifecycle.events_map, events, disposals_append, c.disposals_get, disposals_database]
    rfl

theorem use_keeps (c : Connection) (read : AddressReader) (u : Use) :
    c.Keeps (c.use read u).1 (c.use read u).2 u := by
  cases u with
  | connect arguments => exact (c.connectNamed_attempted arguments read).connects
  | get => exact c.get_gets read
  | test => exact c.test_tests read
  | close =>
      obtain ⟨closed, disposed⟩ := c.close_spec
      constructor
      · rw [show (c.use read .close).1 = c.close.1 from rfl, closed]
        rfl
      · rw [show (c.use read .close).2.events = c.close.2.1 from rfl, disposed, disposals_dispose]

/-- One use: the ledger is settled after it. -/
theorem use_settled (before : c.Settled l) (read : AddressReader) (u : Use) :
    (c.use read u).1.Settled (l.after c (c.use read u).2.events) := by
  cases u with
  | connect arguments => exact (c.connectNamed_attempted arguments read).settled before
  | get => exact get_settled before read
  | test => exact test_settled before read
  | close =>
      obtain ⟨closed, disposed⟩ := c.close_spec
      rw [show (c.use read .close).2.events = c.close.2.1 from rfl, disposed,
        show (c.use read .close).1 = c.close.1 from rfl, closed]
      have entered : l.after c (c.current.toList.map .dispose) =
          ⟨l.created, l.disposed ++ c.current.toList⟩ := by
        simp only [Ledger.after, creations_dispose, disposals_dispose, List.append_nil]
      rw [entered]
      refine ⟨before.numbered, ?_⟩
      simpa only [current, Option.map_none, Option.toList_none, List.append_nil]
        using before.balanced

/-- A run of uses: the ledger stays settled. -/
theorem run_settled (before : c.Settled l) (uses : List (AddressReader × Use)) :
    (c.run l uses).1.Settled (c.run l uses).2 := by
  induction uses generalizing c l with
  | nil => exact before
  | cons first uses ih =>
      obtain ⟨read, u⟩ := first
      exact ih (use_settled before read u)

/-- After any uses of a new connection, whatever failed, the engines that were made and not disposed
of are the current one, and none when there is none; and no engine was disposed of twice. A further
use makes an engine only on demand, or to put it in the place of the one before once it is there; if
it fails to make one it leaves everything as it was; and a test gives back what it obtains. -/
theorem engines_are_accounted_for (settings : ConnectionSettings) (makings : List Making)
    (uses : List (AddressReader × Use)) (read : AddressReader) (u : Use) :
    let (now, ledger) := run { settings := settings, makings := makings } {} uses
    (∀ n, n ∈ ledger.created ∧ n ∉ ledger.disposed ↔ now.current = some n) ∧
      (now.isConnected = true ↔ ∃ n, now.current = some n) ∧
      ledger.disposed.Nodup ∧ ledger.disposed ⊆ ledger.created ∧
      now.Keeps (now.use read u).1 (now.use read u).2 u := by
  have settled := run_settled (.start settings makings) uses
  refine ⟨settled.outstanding, ?_, settled.disposed_once, settled.disposed_created,
    use_keeps _ read u⟩
  rw [isConnected, current, ← Option.isSome_map (f := Engine.number), Option.isSome_iff_exists]

end Connection
end FluentSql
