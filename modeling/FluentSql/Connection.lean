import FluentSql.Connection.Url
import FluentSql.Database.Exchange
import FluentSql.Log.Record
import FluentSql.Settings.Groups
import FluentSql.Value.Merge

/-!
The life of an engine. An engine is made when it is first asked for or when a connection is asked
for explicitly; a new engine replaces the one before, which is disposed of once the new one is
there. A failure to make an engine leaves everything as it was.
-/

namespace FluentSql

/-- An engine, by the order in which engines were made, with the replies of its database. -/
structure Engine where
  number : Nat
  replies : List Reply := []
deriving BEq, Repr

/-- What comes of an attempt to make an engine. -/
inductive Making where
  | made (replies : List Reply)
  | failed (e : Raised)
deriving BEq, Repr

inductive EngineEvent where
  | create (url : Url) (options : List (String × Value))
  | dispose (number : Nat)
  | database (event : Event)
deriving BEq, Repr

structure Connection where
  settings : ConnectionSettings
  engine : Option Engine := none
  backend : Option String := none
  made : Nat := 0
  makings : List Making := []
deriving BEq, Repr

/-- An outcome with the events and the records on the way to it; an error's own records come last.
-/
structure Lifecycle (α : Type) where
  outcome : Except Error α
  events : List EngineEvent := []
  records : List Log.Record := []

/-- All records of an outcome. -/
def Lifecycle.written {α : Type} (l : Lifecycle α) : List Log.Record :=
  l.records ++ Error.recordsOf l.outcome

namespace Connection

def isConnected (c : Connection) : Bool := c.engine.isSome

/-- The arguments of an explicit connection. -/
structure Arguments where
  dsn : Value := .none
  username : Value := .none
  password : Value := .none
  options : Value := .none

def Arguments.names : List String := ["dsn", "username", "password", "options"]

/-- Arguments by name, none of which may be unknown. -/
def Arguments.ofFields (data : List (String × Value)) : Except Raised Arguments :=
  let named (name : String) : Value := (Fields.get? name data).getD .none
  match (Fields.keys data).find? (!names.contains ·) with
  | some other => .error (.typeError s!"a connection has no argument '{other}'")
  | none => .ok ⟨named "dsn", named "username", named "password", named "options"⟩

/-- The first of two values that is not empty, else the second one. -/
def orElse (v w : Value) : Value := if v.truthy then v else w

def notConfigured : Error :=
  .failure (.ofConnection
    "No database DSN configured; pass one to connect() or set SQLCHAIN_DB_DSN" none
    .connectionNotConfigured none)

/-- The exceptions that stand for a failure to make an engine. -/
def isMakingFailure (e : Raised) : Bool :=
  e.isDatabaseError || e.kind.isA "TypeError" || e.kind.isA "ImportError"

/-- The report on an engine that could not be made, for the backend if it is known. -/
def makingError (backend : Option String) (e : Raised) : Error :=
  if isMakingFailure e then
    let named := (backend.filter (!·.isEmpty)).getD "database"
    .failure (.ofConnection s!"Failed to create engine for {named}" backend .connection (some e))
  else e.toError

/-- User and password put into an address; a user has to be text. -/
def withCredentials (url : Url) (username password : Value) : Except Raised Url := do
  let url ← if !username.truthy then .ok url
    else match username with
      | .text s => .ok { url with username := .text s }
      | _ => .error (.typeError "username must be a string")
  .ok (if password.truthy then { url with password := password } else url)

/-- The entries of loosely typed options. -/
def optionEntries (options : Value) : Except Raised (List (Value × Value)) :=
  if !options.truthy then .ok []
  else
    match Entries.merge [] options with
    | (entries, none) => .ok entries
    | (_, some e) => .error e

/-- Options whose keys are names. -/
def namedOptions (entries : List (Value × Value)) : Except Raised (List (String × Value)) :=
  match Settings.textKeys? entries with
  | some fields => .ok fields
  | none => .error (.typeError "keywords must be strings")

/-- The name of the address among the options, which have no room for a second one. -/
def addressName : String := "url"

def refuseAddress (options : List (String × Value)) : Except Raised (List (String × Value)) :=
  if (Fields.keys options).contains addressName then
    .error (.typeError s!"multiple values for argument '{addressName}'")
  else .ok options

/-- The backend whose pool takes no sizes. -/
def poollessBackend : String := "sqlite"

/-- The options that the settings ask for, without those given freely. -/
def settingOptions (s : ConnectionSettings) (backend : String) : List (String × Value) :=
  [("echo", .bool s.echo), ("hide_parameters", .bool s.hideParameters),
    ("pool_pre_ping", .bool true)] ++
  if backend = poollessBackend then []
  else [("pool_size", .int s.poolSize), ("max_overflow", .int s.maxOverflow),
    ("pool_timeout", .int s.poolTimeout)]

/-- The options of an engine: those of the settings, then the free ones, then the explicit ones. -/
def engineOptions (s : ConnectionSettings) (backend : String) (options : Value) :
    Except Raised (List (String × Value)) := do
  let named ← namedOptions (← optionEntries options)
  let given := Fields.insertAll (settingOptions s backend) s.connectOptions
  refuseAddress (Fields.insertAll given named)

/-- How an address is read from the value that is given for it. -/
abbrev AddressReader := Value → Except Raised Url

/-- Address, backend and options of a new engine, or what goes wrong and the backend if it is known.
-/
def plan (s : ConnectionSettings) (a : Arguments) (dsn : Value)
    (read : AddressReader := Url.ofValue) :
    Except (Option String × Raised) (Url × List (String × Value)) :=
  match read dsn with
  | .error e => .error (none, e)
  | .ok url =>
    let username := orElse a.username (Value.ofText? s.username)
    let password := if a.password.isNone then Value.ofText? s.password else a.password
    let prepared := do
      let named ← withCredentials url username password
      .ok (named, ← engineOptions s url.backend a.options)
    match prepared with
    | .ok found => .ok found
    | .error e => .error (some url.backend, e)

/-- Disposes of the engine, if there is one. -/
def close (c : Connection) : Connection × List EngineEvent × List Log.Record :=
  match c.engine with
  | none => (c, [], [])
  | some e =>
    ({ c with engine := none }, [.dispose e.number],
      [{ level := .debug
         logger := Log.engineLogger
         message := "Disposed database engine"
         extra := [("db.system", Value.ofText? c.backend)] }])

/-- The next outcome of making an engine; engines can be made once all outcomes are used. -/
def nextMaking : List Making → Making × List Making
  | [] => (.made [], [])
  | m :: rest => (m, rest)

/-- Makes an engine and puts it in the place of the one before. -/
def make (c : Connection) (url : Url) (options : List (String × Value)) :
    Connection × Lifecycle Nat :=
  let (making, rest) := nextMaking c.makings
  let c := { c with makings := rest }
  match making with
  | .failed e => (c, ⟨.error (makingError (some url.backend) e), [.create url options], []⟩)
  | .made replies =>
    let number := c.made + 1
    let (c, events, records) := close { c with made := number }
    ({ c with engine := some ⟨number, replies⟩, backend := some url.backend },
      { outcome := .ok number
        events := .create url options :: events
        records := records ++ [{
          level := .info
          logger := Log.engineLogger
          message := "Created database engine"
          extra := [("db.system", .text url.backend)] }] })

/-- Makes an engine for the given arguments, or for the settings where they are absent. -/
def connect (c : Connection) (a : Arguments) (read : AddressReader := Url.ofValue) :
    Connection × Lifecycle Nat :=
  let dsn := orElse a.dsn (Value.ofText? c.settings.dsn)
  if !dsn.truthy then (c, ⟨.error notConfigured, [], []⟩)
  else match plan c.settings a dsn read with
    | .error (backend, e) => (c, ⟨.error (makingError backend e), [], []⟩)
    | .ok (url, options) => c.make url options

/-- Makes an engine for arguments by name. -/
def connectNamed (c : Connection) (data : List (String × Value))
    (read : AddressReader := Url.ofValue) : Connection × Lifecycle Nat :=
  match Arguments.ofFields data with
  | .ok a => c.connect a read
  | .error e => (c, ⟨.error (.raised e), [], []⟩)

/-- The engine, which is made now if there is none. -/
def get (c : Connection) (read : AddressReader := Url.ofValue) : Connection × Lifecycle Nat :=
  match c.engine with
  | some e => (c, ⟨.ok e.number, [], []⟩)
  | none => c.connect {} read

def testStatement : String := "SELECT 1"

/-- Runs a statement on the engine and tells whether it succeeded. -/
def testEngine (c : Connection) (e : Engine) : Connection × Lifecycle Bool :=
  let (r, rest) := Reply.next e.replies
  let (events, fault) := Exchange.onEngine { fetches := false } testStatement .none r
  let c := { c with engine := some { e with replies := rest } }
  let events := events.map EngineEvent.database
  match fault with
  | none => (c, ⟨.ok true, events, []⟩)
  | some e =>
    if e.isDatabaseError then
      (c, ⟨.ok false, events, [{
        level := .error
        logger := Log.engineLogger
        message := "Database connection test failed"
        extra := [("db.system", Value.ofText? c.backend), ("error.type", .text e.name)]
        cause := some e }]⟩)
    else (c, ⟨.error e.toError, events, []⟩)

/-- Tells whether the database answers, on an engine that is made now if there is none. -/
def test (c : Connection) (read : AddressReader := Url.ofValue) : Connection × Lifecycle Bool :=
  match c.get read with
  | (c, ⟨.error e, events, records⟩) => (c, ⟨.error e, events, records⟩)
  | (c, ⟨.ok _, events, records⟩) =>
    match c.engine with
    | none => (c, ⟨.ok false, events, records⟩)
    | some e =>
      let (c, tested) := c.testEngine e
      (c, ⟨tested.outcome, events ++ tested.events, records ++ tested.records⟩)

end Connection
end FluentSql
