import FluentSql.Failure
import FluentSql.Value.Merge

/-!
Failures out of named values. Every kind of failure takes a message or makes its own, takes further
details, and adds a detail of its own. An entry that a kind does not know is refused. A message may
be any value; it is kept beside the failure, whose message is its text.
-/

namespace FluentSql.Failure

/-- The ways in which failures are made. -/
inductive Kind where
  | plain
  | build
  | compilation
  | connection
  | configuration
  | query
deriving DecidableEq, Repr

namespace Kind

/-- The names of the values that a kind takes, the required ones first. -/
def required : Kind → List String
  | .query => ["query", "param_count"]
  | _ => ["message"]

def optional : Kind → List String
  | .plain => ["error_code", "details"]
  | .build => ["error_code", "field", "value", "details"]
  | .compilation => ["node_type", "details"]
  | .connection => ["service", "error_code", "details"]
  | .configuration => ["config_key", "details"]
  | .query => ["details"]

/-- The code of a kind, or the one it has when none is given. -/
def code : Kind → Code
  | .plain | .build => .build
  | .compilation => .compileInternal
  | .connection => .connection
  | .configuration => .configInvalid
  | .query => .queryFailed

/-- The value that a kind adds to the details under its own name when it is not empty. -/
def ownDetail? : Kind → Option String
  | .build => some "field"
  | .compilation => some "node_type"
  | .connection => some "service"
  | .configuration => some "config_key"
  | .plain | .query => none

end Kind

/-- Statement text in reports is cut after this many characters. -/
def maxQuery : Nat := 500

def cutQuery (sql : String) : String :=
  if maxQuery < sql.length then String.ofList (sql.toList.take maxQuery) ++ "..." else sql

/-- A statement as a report shows it. Anything that can be measured is taken, but text alone can be
cut. -/
def shownQuery : Value → Except Raised Value
  | .text sql => .ok (.text (cutQuery sql))
  | v =>
    match length? v with
    | none => .error (.typeError s!"object of type '{v.typeName}' has no len()")
    | some n => if maxQuery < n then .error (.typeError "a statement is cut as text") else .ok v
where
  length? : Value → Option Nat
    | .bytes bs => some bs.length
    | .map entries => some entries.length
    | v => v.sequence?.map List.length

/-- The report that the database rejected a statement, which is shown in the details. -/
def queryFailed (shown count : Value) (details : List (String × Value)) (cause : Cause) :
    Failure where
  code := .queryFailed
  message := "Query execution failed: " ++ cause.name
  details := Fields.insertAll details [("query", shown), ("param_count", count)]
  cause := some cause

/-- The report that the database rejected a statement. -/
def ofQuery (sql : String) (count : Value) (cause : Cause) : Failure :=
  queryFailed (.text (cutQuery sql)) count [] cause

/-- The complaint about values that do not suit a kind. -/
def unsuitable {α : Type} (message : String) : Except Error α :=
  .error (.raised (.typeError message))

/-- The details that are given: a map, or a container of pairs. -/
def givenDetails (data : List (String × Value)) : Except Raised (List (String × Value)) :=
  let given := (Fields.get? "details" data).getD .none
  if !given.truthy then .ok []
  else match Entries.merge [] given with
    | (entries, none) => .ok (Fields.ofPairs (entries.map fun (key, v) => (key.toText, v)))
    | (_, some e) => .error e

/-- The code that is given by name, or that of the kind. -/
def codeOf (kind : Kind) (data : List (String × Value)) : Except Error Code :=
  match Fields.get? "error_code" data with
  | none => .ok kind.code
  | some given =>
    match given with
    | .text name =>
      match Code.ofName? name with
      | some code => .ok code
      | none => .error (.raised ⟨"KeyError", name, false⟩)
    | given =>
      .error (.raised (if given.hashable then ⟨"KeyError", given.typeName, false⟩
        else .typeError s!"unhashable type: '{given.typeName}'"))

/-- Whether a kind adds to the details. -/
def addsDetails (kind : Kind) (data : List (String × Value)) : Bool :=
  let value? (name : String) : Value := (Fields.get? name data).getD .none
  kind = .query || (kind.ownDetail?.any fun name => (value? name).truthy) ||
    (kind = .build && !(value? "value").isNone)

/-- Details that can be added to, where a kind adds to them. -/
def takesDetails (kind : Kind) (data : List (String × Value)) : Bool :=
  match Fields.get? "details" data with
  | none => true
  | some (.map _) => true
  | some _ => !addsDetails kind data

/-- The given details with those that a kind adds. -/
def detailsOf (kind : Kind) (data : List (String × Value)) :
    Except Raised (List (String × Value)) := do
  let details ← givenDetails data
  let value? (name : String) : Value := (Fields.get? name data).getD .none
  match kind.ownDetail? with
  | none => .ok details
  | some name =>
    let own := value? name
    let details := if own.truthy then Fields.insert details name own else details
    let given := value? "value"
    if kind = .build && !given.isNone then
      .ok (Fields.insert details "value" (.text (← Raised.textOf given)))
    else .ok details

/-- The report on a statement that the database rejected with some exception. -/
def ofRejected (data : List (String × Value)) (e : Raised) : Except Raised Failure := do
  let query ← shownQuery ((Fields.get? "query" data).getD .none)
  let count := (Fields.get? "param_count" data).getD .none
  .ok (queryFailed query count (← givenDetails data) e)

/-- A failure of a kind out of named values, and its message as it was given. The exception behind
it is one that it is given, or for a rejected statement the one that the database raised. -/
def ofFields (kind : Kind) (data : List (String × Value)) (cause rejection : Option Raised) :
    Except Error (Failure × Value) := do
  let code ← codeOf kind data
  if !kind.required.all (Fields.keys data).contains then unsuitable "a required value is missing"
  else if !(Fields.keys data).all (kind.required ++ kind.optional).contains then
    unsuitable "an unexpected value is given"
  else if !takesDetails kind data then unsuitable "details are a map"
  else
    let made : Except Raised (Failure × Value) :=
      match kind, rejection with
      | .query, some e => do
        let f ← ofRejected data e
        .ok (f, .text f.message)
      | .query, none => .error (.typeError "the exception of the database is missing")
      | _, some _ => .error (.typeError "an unexpected exception is given")
      | kind, none => do
        let message := (Fields.get? "message" data).getD .none
        let details ← detailsOf kind data
        .ok (⟨code, ← Raised.textOf message, details, cause.map fun e => e⟩, message)
    made.mapError .raised

end FluentSql.Failure
