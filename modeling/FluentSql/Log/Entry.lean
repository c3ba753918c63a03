import FluentSql.Json.Writer
import FluentSql.Log.Record
import FluentSql.Log.Template
import FluentSql.Log.Timestamp

/-!
Log entries and their lines. An entry has attributes, in the order in which they were first set;
some names are standard ones, which say what the entry is about. Its line is one JSON object: the
further attributes first, then the point in time, the level, the logger and the message, then the
span in progress and the exception, if there are any. What the entry says under its standard names
takes the place of a further attribute of the same name. Names and texts of attributes are of any
type of texts.
-/

namespace FluentSql

namespace Raised

/-- The full name of an exception's kind; those of the language itself have a short one. -/
def fullName (e : Raised) : String :=
  if e.name = failureName then "sqlchain.common.exceptions." ++ e.name
  else if e.isDatabaseKind then "sqlalchemy.exc." ++ e.name
  else e.name

/-- An exception on one line; a kind without a text stands alone. -/
def report (e : Raised) : String :=
  if e.text.isEmpty then e.fullName else e.fullName ++ ": " ++ e.text

end Raised

namespace Log

variable {τ : Type} [Textual τ]

/-- The text of a value in the place of an exception, its origin and its trace. Only one that is
nowhere there can be told. -/
def reportValue [DecidableEq τ] (v : Value τ) : Except Raised String :=
  let ofParts (parts : List (Value τ)) : Except Raised String :=
    match parts with
    | _ :: .none :: .none :: _ => .ok "NoneType: None"
    | _ :: second :: third :: _ =>
      .error (.noAttribute (if third.isNone then second else third)
        (if third.isNone then "__suppress_context__" else "tb_frame"))
    | _ => .error (.indexError "index out of range")
  match v with
  | .list items => ofParts items
  | .tuple items => ofParts items
  | .text s => ofParts ((Textual.characters s).map .text)
  | .bytes bs => ofParts (bs.map fun b => .int b.toNat)
  | .map entries =>
    match Entries.get? (.int 2) entries, Entries.get? (.int 0) entries,
        Entries.get? (.int 1) entries with
    | some third, some first, some second => ofParts [first, second, third]
    | _, _, _ => .error ⟨"KeyError", "2", false⟩
  | v => .error (.typeError s!"'{v.typeName}' object is not subscriptable")

/-- The span in progress, known by the numbers of its trace and of itself. -/
structure SpanIds where
  trace : Nat
  span : Nat
deriving DecidableEq, Repr

namespace SpanIds

def traceDigits : Nat := 32

def spanDigits : Nat := 16

/-- Numbers that are not zero and fit into their digits. -/
def isValid (ids : SpanIds) : Bool :=
  0 < ids.trace && ids.trace < Nat.pow 16 traceDigits &&
    0 < ids.span && ids.span < Nat.pow 16 spanDigits

/-- The fields of a line that name the span. -/
def fields (ids : SpanIds) : List (String × Value τ) :=
  if ids.isValid then
    [("trace_id", .ofString (String.ofList (Text.hexDigits traceDigits ids.trace))),
      ("span_id", .ofString (String.ofList (Text.hexDigits spanDigits ids.span)))]
  else []

end SpanIds

/-- An entry is known by its attributes. The text of the exception that it was made for stands in
the place of the attribute for exceptions until that one is set. -/
structure Entry (τ : Type := String) where
  attributes : List (Value τ × Value τ) := []
  exception : Option τ := none
deriving BEq, Repr

namespace Entry

/-- The names of the attributes that every entry has; a further attribute has another name. -/
def standardNames : List String :=
  ["name", "msg", "args", "levelname", "levelno", "pathname", "filename", "module", "exc_info",
    "exc_text", "stack_info", "lineno", "funcName", "created", "msecs", "relativeCreated", "thread",
    "threadName", "processName", "process", "taskName", "asctime", "message"]

def exceptionName : String := "exc_info"

/-- The standard name that a text is, if it is one. -/
def standardName? (name : τ) : Option String :=
  standardNames.find? fun standard => codesOf standard == Textual.codes name

def isStandard : Value τ → Bool
  | .text name => (standardName? name).isSome
  | _ => false

/-- The arguments of a message: a map that is not empty stands for itself when it is the only one.
-/
def argumentsOf : List (Value τ) → Value τ
  | [.map (entry :: rest)] => .map (entry :: rest)
  | vs => .tuple vs

/-- An entry as it is made. -/
def make (logger : Value τ) (level : String) (message : Value τ) (arguments : List (Value τ) := [])
    (created : Value τ := .int 0) (exception : Option Raised := none) : Entry τ where
  attributes := [(.ofString "name", logger), (.ofString "msg", message),
    (.ofString "args", argumentsOf arguments), (.ofString "levelname", .ofString level),
    (.ofString "created", created)] ++
    if exception.isSome then [] else [(.ofString exceptionName, .none)]
  exception := exception.map fun e => Textual.ofString e.report

variable [DecidableEq τ]

def get? (e : Entry τ) (name : String) : Option (Value τ) :=
  Entries.get? (.ofString name) e.attributes

/-- The value of an attribute that has to be there. -/
def need (e : Entry τ) (name : String) : Except Raised (Value τ) :=
  match e.get? name with
  | some v => .ok v
  | none => .error (.attributeError s!"'LogRecord' object has no attribute '{name}'")

/-- The entry with an attribute put into its place. -/
def put (e : Entry τ) (name : τ) (v : Value τ) : Entry τ where
  attributes := Entries.insert e.attributes (.text name) v
  exception := if name = Textual.ofString exceptionName then none else e.exception

def putAll (e : Entry τ) (attributes : List (τ × Value τ)) : Entry τ :=
  attributes.foldl (fun e (name, v) => e.put name v) e

/-- Sets an attribute. One name stands for all attributes at once, and two cannot be set. -/
def set (e : Entry τ) (name : τ) (v : Value τ) : Except Raised (Entry τ) :=
  if name = Textual.ofString "__dict__" then
    match v with
    | .map entries => .ok { attributes := entries }
    | v => .error (.typeError s!"__dict__ must be set to a dictionary, not a '{v.typeName}'")
  else if name = Textual.ofString "__class__" then
    .error (.typeError s!"__class__ must be set to a class, not '{v.typeName}' object")
  else if name = Textual.ofString "__weakref__" then
    .error (.attributeError "attribute '__weakref__' of 'LogRecord' objects is not writable")
  else .ok (e.put name v)

def setAll (e : Entry τ) (attributes : List (τ × Value τ)) : Except Raised (Entry τ) :=
  attributes.foldlM (fun e (name, v) => e.set name v) e

/-- The further attributes, in their order. -/
def extra (e : Entry τ) : List (Value τ × Value τ) :=
  e.attributes.filter fun (name, _) => !isStandard name

/-- The message with its arguments; without any it is no template. An attribute in the place of what
reads the message keeps it from being read. -/
def message (e : Entry τ) : Except Raised (List Nat) := do
  if let some v := e.get? "getMessage" then
    .error (.typeError s!"'{v.typeName}' object is not callable")
  else
    let shown ← Raised.textCodes (← e.need "msg")
    let arguments ← e.need "args"
    if arguments.truthy then Template.fill shown arguments else .ok shown

/-- The text of the exception, if there is one. -/
def exceptionText (e : Entry τ) : Except Raised (Option τ) :=
  match e.exception with
  | some report => .ok (some report)
  | none => do
    let v ← e.need exceptionName
    if v.truthy then (reportValue v).map fun s => some (Textual.ofString s) else .ok none

/-- The fields of a line in their order, each with its value as it is written. -/
def fields (e : Entry τ) (stamp : String) (level logger : Value τ) (message : List Nat)
    (more : List (String × Value τ)) : List (Value τ × Except Raised (List Char)) :=
  let own : List (String × Except Raised (List Char)) :=
    [("timestamp", .ok (Json.writeText stamp)), ("level", Json.write level),
      ("logger", Json.write logger), ("message", .ok (Json.writeCodes message))] ++
    more.map fun (name, v) => (name, Json.write v)
  own.foldl (fun fields (name, written) => Entries.insert fields (.ofString name) written)
    (e.extra.map fun (name, v) => (name, Json.write v))

/-- The line of an entry whose point in time is written already. -/
def lineAt (e : Entry τ) (stamp : String) (span : Option SpanIds) : Except Raised String := do
  let level ← e.need "levelname"
  let logger ← e.need "name"
  let message ← e.message
  let exception ← e.exceptionText
  let more := span.elim [] SpanIds.fields ++ exception.toList.map fun s => ("exception", .text s)
  .ok (String.ofList (← Json.writeObject (e.fields stamp level logger message more)))

/-- The line of an entry. The point in time, the level, the logger, the message, the exception and
the fields are read in this order, and the first of them that fails decides the error. -/
def line (e : Entry τ) (span : Option SpanIds) : Except Raised String := do
  let created ← Timestamp.ofValue (← e.need "created")
  e.lineAt (← created.write) span

end Entry
end Log
end FluentSql
