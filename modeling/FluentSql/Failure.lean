import FluentSql.Value.Key
import FluentSql.Value.Text

/-!
What can go wrong. A `Failure` is an error of this library: a code, a message, details and the
exception behind it, if any. A `Raised` exception comes from elsewhere and is known by its kind and
its message; its kind has a name and belongs to wider kinds, by which exceptions are handled. An
`Error` is one of the two, or the report that some fields of plain data do not have the required
form.
-/

namespace FluentSql

/-- The kinds of failure that callers tell apart. -/
inductive Category where
  | build
  | compile
  | connection
  | execution
  | config
deriving DecidableEq, Repr

namespace Category

def text : Category → String
  | .build => "BUILD"
  | .compile => "COMPILE"
  | .connection => "CONNECTION"
  | .execution => "EXECUTION"
  | .config => "CONFIG"

/-- The statement itself was malformed or incomplete. -/
def isBuild : Category → Bool
  | .build | .compile => true
  | _ => false

/-- The database or the way to it failed. -/
def isExecution : Category → Bool
  | .execution | .connection => true
  | _ => false

end Category

inductive Code where
  | build
  | missingTable
  | missingValues
  | invalidArgument
  | invalidIdentifier
  | invalidOperator
  | invalidLimit
  | operationConflict
  | unconditionalWrite
  | statementConsumed
  | compileInternal
  | connection
  | connectionNotConfigured
  | queryFailed
  | configInvalid
deriving DecidableEq, Repr

namespace Code

def category : Code → Category
  | .compileInternal => .compile
  | .connection | .connectionNotConfigured => .connection
  | .queryFailed => .execution
  | .configInvalid => .config
  | _ => .build

def name : Code → String
  | .build => "BUILD_ERROR"
  | .missingTable => "BUILD_MISSING_TABLE"
  | .missingValues => "BUILD_MISSING_VALUES"
  | .invalidArgument => "BUILD_INVALID_ARGUMENT"
  | .invalidIdentifier => "BUILD_INVALID_IDENTIFIER"
  | .invalidOperator => "BUILD_INVALID_OPERATOR"
  | .invalidLimit => "BUILD_INVALID_LIMIT"
  | .operationConflict => "BUILD_OPERATION_CONFLICT"
  | .unconditionalWrite => "BUILD_UNCONDITIONAL_WRITE"
  | .statementConsumed => "BUILD_STATEMENT_CONSUMED"
  | .compileInternal => "COMPILE_INTERNAL"
  | .connection => "CONNECTION_ERROR"
  | .connectionNotConfigured => "CONNECTION_NOT_CONFIGURED"
  | .queryFailed => "EXECUTION_QUERY_FAILED"
  | .configInvalid => "CONFIG_INVALID"

/-- The number of a code within its category. -/
def number : Code → String
  | .build => "001"
  | .missingTable => "002"
  | .missingValues => "003"
  | .invalidArgument => "004"
  | .invalidIdentifier => "005"
  | .invalidOperator => "006"
  | .invalidLimit => "007"
  | .operationConflict => "008"
  | .unconditionalWrite => "009"
  | .statementConsumed => "010"
  | .compileInternal => "001"
  | .connection => "001"
  | .connectionNotConfigured => "002"
  | .queryFailed => "001"
  | .configInvalid => "001"

def text (c : Code) : String := c.category.text ++ "_" ++ c.number

def all : List Code :=
  [.build, .missingTable, .missingValues, .invalidArgument, .invalidIdentifier, .invalidOperator,
    .invalidLimit, .operationConflict, .unconditionalWrite, .statementConsumed, .compileInternal,
    .connection, .connectionNotConfigured, .queryFailed, .configInvalid]

def ofName? (s : String) : Option Code := all.find? (·.name == s)

end Code

namespace Raised

/-- The database errors that carry the statement they arose from. -/
def statementErrors : List String :=
  ["StatementError", "DBAPIError", "InterfaceError", "DatabaseError", "DataError",
    "OperationalError", "IntegrityError", "InternalError", "ProgrammingError", "NotSupportedError"]

/-- The errors of the database layer, apart from its warnings. -/
def databaseErrors : List String :=
  statementErrors ++
    ["SQLAlchemyError", "ArgumentError", "DuplicateColumnError", "ObjectNotExecutableError",
      "NoSuchModuleError", "NoForeignKeysError", "AmbiguousForeignKeysError",
      "ConstraintColumnNotFoundError", "CircularDependencyError", "CompileError",
      "UnsupportedCompilationError", "IdentifierError", "DisconnectionError",
      "InvalidatePoolError", "TimeoutError", "InvalidRequestError", "IllegalStateChangeError",
      "NoInspectionAvailable", "PendingRollbackError", "ResourceClosedError",
      "NoSuchColumnError", "NoResultFound", "MultipleResultsFound", "NoReferenceError",
      "AwaitRequired", "MissingGreenlet", "NoReferencedTableError", "NoReferencedColumnError",
      "NoSuchTableError", "UnreflectableTableError", "UnboundExecutionError"]

def databaseWarnings : List String :=
  ["SAWarning", "SADeprecationWarning", "SAPendingDeprecationWarning", "SATestSuiteWarning",
    "Base20DeprecationWarning", "LegacyAPIWarning", "MovedIn20Warning", "RemovedIn20Warning"]

/-- The wider kinds of a kind that is known by its name, as far as exceptions are handled by them.
-/
def widerKinds (name : String) : List String :=
  if statementErrors.contains name then ["StatementError", "SQLAlchemyError"]
  else if databaseErrors.contains name then ["SQLAlchemyError"]
  else if ["SettingsError", "UnicodeDecodeError", "UnicodeEncodeError"].contains name then
    ["ValueError"]
  else if name = "ModuleNotFoundError" then ["ImportError"]
  else []

/-- The kind of an exception: its name, and the wider kinds that it belongs to. -/
structure Kind where
  name : String
  wider : List String := widerKinds name
deriving DecidableEq, Repr, Inhabited

namespace Kind

instance : Coe String Kind := ⟨fun name => { name := name }⟩

/-- Whether a handler for exceptions of a name takes those of this kind. -/
def isA (k : Kind) (name : String) : Bool := k.name == name || k.wider.contains name

end Kind
end Raised

/-- An exception that a database, a callback or the reading of a value raises. A statement error of
the database also says whether it hides the bound values in its text. -/
structure Raised where
  kind : Raised.Kind
  message : String
  hidesParameters : Bool := false
deriving DecidableEq, Repr, Inhabited

namespace Raised

def name (e : Raised) : String := e.kind.name

def isDatabaseError (e : Raised) : Bool := e.kind.isA "SQLAlchemyError"

def isStatementError (e : Raised) : Bool := e.kind.isA "StatementError"

/-- The exceptions that the database layer defines; some of them are warnings. -/
def isDatabaseKind (e : Raised) : Bool := e.isDatabaseError || databaseWarnings.contains e.name

/-- A complaint about a value, which the reading of settings turns into a report of its own. -/
def isValueError (e : Raised) : Bool := e.kind.isA "ValueError"

def typeError (message : String) : Raised := ⟨"TypeError", message, false⟩

def valueError (message : String) : Raised := ⟨"ValueError", message, false⟩

def attributeError (message : String) : Raised := ⟨"AttributeError", message, false⟩

def indexError (message : String) : Raised := ⟨"IndexError", message, false⟩

def overflowError (message : String) : Raised := ⟨"OverflowError", message, false⟩

/-- The complaint that a value of this type has no attribute of that name. -/
def noAttribute {τ : Type} (v : Value τ) (member : String) : Raised :=
  attributeError s!"'{v.typeName}' object has no attribute '{member}'"

/-- The complaint that a whole number has too many digits to be written. -/
def tooManyDigits : Raised :=
  valueError ("Exceeds the limit (4300 digits) for integer string conversion; " ++
    "use sys.set_int_max_str_digits() to increase the limit")

/-- The text of a value, unless a number in it has too many digits. -/
def textOf (v : Value) : Except Raised String :=
  if v.isWritable then .ok v.toText else .error tooManyDigits

/-- The code points of a value's text, unless a number in it has too many digits. -/
def textCodes {τ : Type} [Textual τ] (v : Value τ) : Except Raised (List Nat) :=
  if v.isWritable then .ok v.codes else .error tooManyDigits

/-- The displayed form of a value, unless a number in it has too many digits. -/
def displayOf {τ : Type} [Textual τ] (v : Value τ) : Except Raised String :=
  if v.isWritable then .ok v.display else .error tooManyDigits

end Raised

/-- The exception behind a failure. One of a statement also carries the statement's text and the
values that were bound, if the database was given any. -/
structure Failure.Cause extends Raised where
  statement : Option (String × Value) := none
deriving BEq, Repr

instance : Coe Raised Failure.Cause := ⟨fun e => { toRaised := e }⟩

structure Failure where
  code : Code
  message : String
  details : List (String × Value) := []
  cause : Option Failure.Cause := none
deriving BEq, Repr

inductive Error where
  | failure (f : Failure)
  | invalid (fields : List String)
  | raised (e : Raised)
deriving BEq, Repr

namespace Failure

/-- An exception as it appears when it stands for a failure of this library. -/
def ofConnection (message : String) (service : Option String) (code : Code)
    (cause : Option Cause) : Failure where
  code := code
  message := message
  details := match service with
    | some s => if s.isEmpty then [] else [("service", .text s)]
    | none => []
  cause := cause

/-- Details of a refused argument: further details, then the argument's name and its text. -/
def argumentDetails (details : List (String × Value)) (field value : Value) :
    List (String × Value) :=
  let details := if field.truthy then Fields.insert details "field" field else details
  if value.isNone then details else Fields.insert details "value" (.text value.toText)

def ofArgument (code : Code) (message : String) (field value : Value)
    (details : List (String × Value)) : Failure where
  code := code
  message := message
  details := argumentDetails details field value

end Failure

namespace Raised

/-- The name that a failure of this library goes by among exceptions. -/
def failureName : String := "SqlChainError"

/-- The text of an exception; a missing key is shown in its quoted form. -/
def text (e : Raised) : String :=
  if e.kind.isA "KeyError" then Text.quoted e.message
  else if e.name = failureName then s!"[{Code.connection.text}] {e.message}"
  else e.message

/-- A scripted exception as an error; a failure of this library is told by its name. -/
def toError (e : Raised) : Error :=
  if e.name = failureName then .failure (.ofConnection e.message none .connection none)
  else .raised e

end Raised

/-- How the database layer writes the text of an exception. A statement error shows the values that
were bound unless it hides them. -/
abbrev Rendering := Failure.Cause → String

/-- The text of an exception that shows nothing of its statement. -/
def Rendering.plain : Rendering := fun e => e.toRaised.text

namespace Failure

/-- The text of a failure: its code, its message and the exception behind it. -/
def text (f : Failure) (render : Rendering := .plain) : String :=
  let head := s!"[{f.code.text}] {f.message}"
  match f.cause with
  | some e => s!"{head} (caused by: {e.name}: {render e})"
  | none => head

end Failure

namespace Error

/-- The name of an error's kind, as traces record it. -/
def kind : Error → String
  | .failure f => f.code.name
  | .invalid _ => "ValidationError"
  | .raised e => e.name

def text (render : Rendering) : Error → String
  | .failure f => f.text render
  | .invalid fields => ", ".intercalate fields
  | .raised e => e.text

end Error
end FluentSql
