import FluentSql.Checked
import FluentSql.Compile.Compiler
import FluentSql.Log.Record
import FluentSql.Settings.Environment

/-!
Groups of settings. A setting is given by name, else by the environment, else it has a default. The
aggregate holds one group for the connection and one for the compiler; a group in it is also read
from the variables of its own.
-/

namespace FluentSql

structure CompilerSettings where
  style : Style
  dialect : String
  quoteIdentifiers : Bool
  allowUnconditionalWrites : Bool
deriving DecidableEq, Repr

structure ConnectionSettings where
  dsn : Option String
  username : Option String
  password : Option String
  connectOptions : List (String × Value)
  poolSize : Int
  maxOverflow : Int
  poolTimeout : Int
  echo : Bool
  hideParameters : Bool
deriving BEq, Repr

structure Settings where
  connection : ConnectionSettings
  compiler : CompilerSettings
  logLevel : String
deriving BEq, Repr

/-- Settings by name under the names that they have in lower case; of those that differ in case
only, the first one counts. -/
def foldNames (names : List String) (named : List (String × Value)) : List (String × Value) :=
  Fields.ofPairs (named.map fun (name, v) => (Environment.canonicalName names name, v)).reverse

/-- The settings that are given, with those by name put over those of the environment. -/
def givenSettings (env : Environment) (start : String) (shapes : List (String × SettingShape))
    (named : List (String × Value)) : Except Error (List (String × Value)) := do
  .ok (Environment.overlayFields (← Environment.settings env.folded start shapes)
    (foldNames (shapes.map (·.1)) named))

namespace CompilerSettings

def start : String := "sqlchain_sql_"

def names : List String := Compiler.settingNames

def shapes : List (String × SettingShape) := names.map fun name => (name, .plain)

/-- The dialect's name in lower case without blanks around it. -/
def checkDialect (v : Value) : Checked String :=
  match v.asText? with
  | some s =>
    let name := Text.lower (Text.trim s)
    match Dialect.check name with
    | .ok () => .ok name
    | .error e => if e.isValueError then .invalid [""] else .stop (.raised e)
  | none => .invalid [""]

def check (data : List (String × Value)) : Checked CompilerSettings :=
  let flag (name : String) : Checked Bool :=
    checkField data name (.ok false) fun v => .ofOption v.asBool?
  ((((checkField data "placeholder_style" (.ok .qmark) fun v =>
      .ofOption (v.asText?.bind Style.ofText?)).map CompilerSettings.mk).app
    (checkField data "dialect" (.ok "sqlite") checkDialect)).app
    (flag "quote_identifiers")).app
    (flag "allow_unconditional_writes")

def ofSources (env : Environment) (named : List (String × Value)) :
    Except Error CompilerSettings := do
  (check (← givenSettings env start shapes named)).toExcept

def toCompiler (s : CompilerSettings) : Compiler where
  style := s.style
  dialect := s.dialect
  quoteIdentifiers := .bool s.quoteIdentifiers
  allowUnconditionalWrites := .bool s.allowUnconditionalWrites

end CompilerSettings

namespace ConnectionSettings

def start : String := "sqlchain_db_"

def optionsName : String := "connect_options"

def shapes : List (String × SettingShape) :=
  [("dsn", .plain), ("username", .plain), ("password", .plain), (optionsName, .map),
    ("pool_size", .plain), ("max_overflow", .plain), ("pool_timeout", .plain), ("echo", .plain),
    ("hide_parameters", .plain)]

def names : List String := shapes.map (·.1)

def checkText : Value → Checked (Option String)
  | .none => .ok none
  | v => .ofOption (v.asText?.map some)

/-- A whole number between bounds, of which the upper one may be absent. -/
def checkNumber (least : Int) (greatest : Option Int) (v : Value) : Checked Int :=
  .ofOption (v.asInt?.filter fun n => least ≤ n && greatest.all (n ≤ ·))

def check (data : List (String × Value)) : Checked ConnectionSettings :=
  let text (name : String) : Checked (Option String) := checkField data name (.ok none) checkText
  let number (name : String) (absent least : Int) (greatest : Option Int) : Checked Int :=
    checkField data name (.ok absent) (checkNumber least greatest)
  let flag (name : String) (absent : Bool) : Checked Bool :=
    checkField data name (.ok absent) fun v => .ofOption v.asBool?
  (((((((((text "dsn").map ConnectionSettings.mk).app
    (text "username")).app
    (text "password")).app
    (checkField data optionsName (.ok []) fun v => .ofOption v.asFields?)).app
    (number "pool_size" 5 1 (some 100))).app
    (number "max_overflow" 10 0 none)).app
    (number "pool_timeout" 30 1 none)).app
    (flag "echo" false)).app
    (flag "hide_parameters" true)

def ofSources (env : Environment) (named : List (String × Value)) :
    Except Error ConnectionSettings := do
  (check (← givenSettings env start shapes named)).toExcept

end ConnectionSettings

namespace Settings

def start : String := "sqlchain_"

def shapes : List (String × SettingShape) :=
  [("connection", .group ConnectionSettings.names [ConnectionSettings.optionsName]),
    ("compiler", .group CompilerSettings.names []), ("log_level", .plain)]

/-- The levels that may be set. -/
def logLevels : List String := ["DEBUG", "INFO", "WARNING", "ERROR", "CRITICAL"]

def checkLogLevel (v : Value) : Checked String :=
  .ofOption ((v.asText?.map Text.upper).filter logLevels.contains)

/-- Texts as keys of all entries. -/
def textKeys? (entries : List (Value × Value)) : Option (List (String × Value)) :=
  entries.mapM fun
    | (.text name, v) => some (name, v)
    | _ => none

/-- A group that is given: what is wrong with its settings is reported as wrong with the group. -/
def checkGroup {α : Type} (ofSources : List (String × Value) → Except Error α) : Value → Checked α
  | .map entries =>
    match textKeys? entries with
    | none => .stop (.raised (.typeError "keywords must be strings"))
    | some fields =>
      match ofSources fields with
      | .ok group => .ok group
      | .error (.failure f) => .stop (.failure f)
      | .error (.invalid _) => .invalid [""]
      | .error (.raised e) => if e.isValueError then .invalid [""] else .stop (.raised e)
  | _ => .invalid [""]

/-- A group that is not given is read from its own variables, and reports its own settings. -/
def absentGroup {α : Type} (ofSources : List (String × Value) → Except Error α) : Checked α :=
  match ofSources [] with
  | .ok group => .ok group
  | .error e => .stop e

def check (env : Environment) (data : List (String × Value)) : Checked Settings :=
  let group {α : Type} (name : String) (ofSources : List (String × Value) → Except Error α) :
      Checked α :=
    match Fields.get? name data with
    | some v => (checkGroup ofSources v).inField name
    | none => absentGroup ofSources
  (((group "connection" (ConnectionSettings.ofSources env)).map Settings.mk).app
    (group "compiler" (CompilerSettings.ofSources env))).app
    (checkField data "log_level" (.ok "INFO") checkLogLevel)

def ofSources (env : Environment) (named : List (String × Value)) : Except Error Settings := do
  (check env (← givenSettings env start shapes named)).toExcept

end Settings
end FluentSql
