import FluentSql.Database.Exchange
import FluentSql.Failure.Fields
import FluentSql.Frame
import FluentSql.Refusal
import FluentSql.Rows
import FluentSql.Text.Digits
import FluentSql.Trace

/-!
Execution of compiled statements. Each request makes one exchange with the database, writes one log
record and runs in a span of its own. A failure of the database is reported with the text and the
number of its parameters; the values that were bound appear in no record, span or report.
-/

namespace FluentSql

/-- What is asked of an executor. Styles are loosely typed, since callers may name them. -/
inductive Request where
  | all (style : Value)
  | first (style : Value)
  | scalar
  | insert
  | execute
  | frame
deriving BEq, Repr

namespace Request

/-- The name of a request in traces. -/
def name : Request → String
  | .all _ => "fetch_all"
  | .first _ => "fetch_one"
  | .scalar => "fetch_scalar"
  | .insert => "insert"
  | .execute => "execute"
  | .frame => "fetch_dataframe"

def exchange : Request → Exchange
  | .all _ | .scalar | .frame => { fetches := true }
  | .first _ => { fetches := true, closes := true }
  | .insert | .execute => { fetches := false, writes := true }

def successMessage : Request → String
  | .all _ => "Results fetched"
  | .first _ => "Row fetched"
  | .scalar => "Scalar fetched"
  | .insert => "Row inserted"
  | .execute => "Statement executed"
  | .frame => "DataFrame fetched"

def failureMessage : Request → String
  | .all _ => "Fetch all failed"
  | .first _ => "Fetch one failed"
  | .scalar => "Scalar fetch failed"
  | .insert => "Insert failed"
  | .execute => "Statement execution failed"
  | .frame => "DataFrame fetch failed"

/-- A request for one row checks its style before anything else happens. -/
def checkFirst : Request → Except Error Unit
  | .first style => do
    if (← Rows.readStyle style) = .group then refuse .groupNeedsRows else .ok ()
  | _ => .ok ()

/-- The whole number that a counting statement gives; nothing counts as zero. -/
def wholeNumber : Value → Except Error Int
  | .none => .ok 0
  | .bool b => .ok (if b then 1 else 0)
  | .int n => .ok n
  | .float .nan => .error (.raised (.valueError "cannot convert float NaN to integer"))
  | .float x =>
    match x.truncate? with
    | some n => .ok n
    | none => .error (.raised (.overflowError "cannot convert float infinity to integer"))
  | .text s => ofChars s.toList (Text.quoted s)
  | .bytes bs => ofBytes bs
  | v => .error (.raised (.typeError
      ("int() argument must be a string, a bytes-like object or a real number, not " ++
        Text.quoted v.typeName)))
where
  ofChars (cs : List Char) (shown : String) : Except Error Int :=
    match Text.checkedInteger cs shown with
    | .ok n => .ok n
    | .error message => .error (.raised (.valueError message))
  /-- Bytes are read as ASCII. -/
  ofBytes (bs : List UInt8) : Except Error Int :=
    let shown := Text.quotedBytes (bs.take 200)
    if bs.all (· < 128) then ofChars (bs.map fun b => Char.ofNat b.toNat) shown
    else .error (.raised (.valueError (Text.notANumber shown)))

/-- What the success record says about the reply. -/
def summary (q : Request) (r : Reply) : String × Value :=
  match q with
  | .all _ | .frame => ("row_count", .ofNat r.rows.length)
  | .first _ => ("row_count", .int (if r.rows.isEmpty then 0 else 1))
  | .scalar => ("value_is_null", .bool r.scalar.isNone)
  | .insert => ("row_id_reported", .bool r.lastRowId.truthy)
  | .execute => ("row_count", r.rowCount)

end Request

/-- What a request gives. -/
inductive Answer where
  | value (v : Value)
  | frame (f : Frame)
deriving BEq, Repr

namespace Answer

/-- The answer to a request out of a reply. -/
def ofReply (q : Request) (r : Reply) : Except Error Answer :=
  match q with
  | .all style => do
    let style ← Rows.readStyle style
    .ok (.value (← Rows.shape r.keys r.rows style))
  | .first style => do
    let style ← Rows.readStyle style
    match r.rows with
    | [] => .ok (.value .none)
    | row :: _ => .ok (.value (← Rows.shapeOne r.keys row style))
  | .scalar => do .ok (.value (.int (← Request.wholeNumber r.scalar)))
  | .insert => .ok (.value (if r.lastRowId.truthy then r.lastRowId else .bool true))
  | .execute => .ok (.value r.rowCount)
  | .frame =>
    match Frame.ofRows r.keys r.rows with
    | .ok f => .ok (.frame f)
    | .error e => .error (.raised e)

end Answer

/-- An executor on a handle, for a database system whose name its records and spans carry. -/
structure Executor where
  handle : Handle
  system : Value
deriving BEq, Repr

namespace Executor

/-- The name of a database system; an absent one has a general name. -/
def systemName (given : Value) : Value := if given.truthy then given else .text "sql"

/-- Statement text in spans is cut to this many characters. -/
def maxSpanStatement : Nat := 4096

def spanStatement (sql : String) : String :=
  let statement := Text.trim sql
  if maxSpanStatement < statement.length then
    String.ofList (statement.toList.take (maxSpanStatement - 3)) ++ "..."
  else statement

/-- The table of a statement under a key, when there is one. -/
def tableEntry (key : String) (c : Compiled) : List (String × Value) :=
  match c.table with
  | some table => if table.isEmpty then [] else [(key, .text table)]
  | none => []

/-- The attributes of a statement's span. -/
def spanAttributes (system : Value) (method : Value) (c : Compiled) :
    Except Raised (List (String × Value)) := do
  let count ← c.paramCount
  let statement := spanStatement c.sql
  .ok ([("db.system", systemName system), ("db.operation", Value.ofText? c.operation),
    ("db.statement", .text statement), ("db.statement.length", .ofNat statement.length),
    ("db.params.count", .ofNat count), ("sqlchain.executor.method", method)] ++
    tableEntry "db.sql.table" c)

/-- What records say about a statement. -/
def payload (system : Value) (c : Compiled) (count : Nat) : List (String × Value) :=
  [("db.system", systemName system), ("db.operation", Value.ofText? c.operation),
    ("param_count", .ofNat count)] ++ tableEntry "db.table" c

/-- A record marks where a duration stands; how long an exchange takes depends on the clock alone.
-/
def duration : String × Value := ("duration.seconds", .text "<duration>")

/-- An exception as the cause of a report. One of a statement carries what was executed, and is told
to keep the bound values out of its text. -/
def causeOf (events : List Event) (e : Raised) : Failure.Cause :=
  if e.isStatementError then
    { toRaised := { e with hidesParameters := true }
      statement := events.findSome? Event.statement? }
  else e

/-- An outcome with the events and the records on the way to it. -/
structure Performed where
  outcome : Except Error Answer
  events : List Event := []
  records : List Log.Record := []

/-- The end of an exchange that failed: only exceptions of the database are reported as its own. -/
def performFailed (x : Executor) (q : Request) (c : Compiled) (count : Nat) (events : List Event)
    (e : Raised) : Performed :=
  if e.isDatabaseError then
    let cause := causeOf events e
    { outcome := .error (.failure (.ofQuery c.sql (.ofNat count) cause))
      events := events
      records := [{
        level := .error
        logger := Log.executorLogger
        message := q.failureMessage
        extra := payload x.system c count ++ [duration, ("error.type", .text e.name)]
        cause := some cause }] }
  else { outcome := .error e.toError, events := events }

def successRecord (x : Executor) (q : Request) (c : Compiled) (count : Nat) (r : Reply) :
    Log.Record where
  level := .info
  logger := Log.executorLogger
  message := q.successMessage
  extra := payload x.system c count ++ [q.summary r, duration]

/-- The end of an exchange that succeeded. A frame is built before the record is written, every
other answer after it. -/
def performDone (x : Executor) (q : Request) (c : Compiled) (count : Nat) (events : List Event)
    (r : Reply) : Performed :=
  match q, Answer.ofReply q r with
  | .frame, .error e => { outcome := .error e, events := events }
  | _, outcome => { outcome := outcome, events := events, records := [x.successRecord q c count r] }

/-- Carries out a request against a reply, or fails before the database is asked. The result says
whether the reply was used. -/
def perform (x : Executor) (q : Request) (c : Compiled) (r : Reply) : Performed × Bool :=
  match q.checkFirst with
  | .error e => ({ outcome := .error e }, false)
  | .ok () =>
    match c.paramCount with
    | .error e => ({ outcome := .error (.raised e) }, false)
    | .ok count =>
      match Compiled.bindParameters c.parameters with
      | .error e => ({ outcome := .error e }, false)
      | .ok parameters =>
        match q.exchange.run x.handle c.sql parameters r with
        | (events, some e) => (x.performFailed q c count events e, true)
        | (events, none) => (x.performDone q c count events r, true)

/-- The attributes of a request's span. -/
def found (x : Executor) (q : Request) (c : Compiled) : Trace.Found :=
  Trace.attributes .none (some (match spanAttributes x.system (.text q.name) c with
    | .ok attributes => .ok (Fields.toValue attributes)
    | .error e => .error (.raised e)))

def spanName (request : String) : String := "sqlchain.executor." ++ request

/-- An outcome with all that was left on the way to it, and the replies that remain. -/
structure Run where
  outcome : Except Error Answer
  events : List Event := []
  records : List Log.Record := []
  spans : List Span := []
  rest : List Reply

/-- Carries out a request in its span. -/
def run (x : Executor) (q : Request) (c : Compiled) (replies : List Reply) : Run :=
  let (r, rest) := Reply.next replies
  let found := x.found q c
  let (p, used) := x.perform q c r
  let (outcome, span) := Trace.around (spanName q.name) "CLIENT" found p.outcome
  { outcome := outcome
    events := p.events
    records := found.records ++ p.records
    spans := [span]
    rest := if used then rest else replies }

end Executor
end FluentSql
