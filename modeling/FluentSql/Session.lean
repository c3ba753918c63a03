import FluentSql.Builder

/-!
Sessions: builders by name over one handle to a database. Every step has an outcome, and leaves the
events of the database, the log records and the spans on the way to it. An error ends its step and
nothing else. A name that holds no builder gets a new one at its first use.
-/

namespace FluentSql

/-- The source of handles; not every one of them can be closed. -/
structure Provider where
  handle : Handle
  closable : Bool := true
deriving DecidableEq, Repr

structure Session where
  compiler : Compiler
  provider : Option Provider := none
  builders : List (String × Builder) := []
  replies : List Reply := []
deriving BEq, Repr

/-- What a step asks for. -/
inductive Action where
  | chain (c : Call)
  | finish (t : Terminal)
  | compile
  | toSql
  | statement
  | consumed
  | fresh
  | startTable (name : Value)
  | startRaw (sql params : Value)
  | getConnection
  | close
  | closeAfterUse
  | request (q : Request) (statement : List (String × Value))
  | excessRequest (name : String) (least greatest given : Nat) (statement : List (String × Value))
  | wrongArity (name : String)
  | unknown (name : String)
  | misused (name : String) (e : Raised)
deriving BEq, Repr

namespace Action

/-- The complaint about a call with too few or too many arguments. -/
def arityError (name : String) : Raised :=
  .typeError s!"{name}() was called with a wrong number of arguments"

/-- The complaint about a call that there is not. -/
def unknownError (name : String) : Raised := .attributeError s!"there is no call named '{name}'"

/-- The requests that can be made directly, by name. -/
def requestNames : List (String × Request) :=
  [("fetch_all", .all Terminal.defaultStyle), ("fetch_one", .first Terminal.defaultStyle),
    ("fetch_scalar", .scalar), ("insert", .insert), ("execute", .execute),
    ("fetch_dataframe", .frame)]

/-- A direct request with further arguments, of which only a style is taken. -/
def requestOf (name : String) (statement : List (String × Value)) (args : List Value) : Action :=
  match requestNames.lookup name, args with
  | none, _ => .misused name (unknownError name)
  | some (.all _), [style] => .request (.all style) statement
  | some (.first _), [style] => .request (.first style) statement
  | some q, [] => .request q statement
  | some (.all _), args => .excessRequest name 2 3 (2 + args.length) statement
  | some (.first _), args => .excessRequest name 2 3 (2 + args.length) statement
  | some _, args => .excessRequest name 2 2 (2 + args.length) statement

/-- The action of a call on a builder. -/
def ofCall (name : String) (args : List Value) : Action :=
  match Call.ofName? name args, Terminal.ofName? name args with
  | some c, _ => .chain c
  | none, some t => .finish t
  | none, none =>
    match name, args with
    | "compile", [] => .compile
    | "to_sql", [] => .toSql
    | "statement", [] => .statement
    | "consumed", [] => .consumed
    | "new", [] => .fresh
    | _, _ =>
      if (Call.names ++ Terminal.names ++ ["compile", "to_sql"]).contains name then .wrongArity name
      else .unknown name

/-- The action of a call on the database. -/
def ofDatabaseCall (name : String) (args : List Value) : Action :=
  match name, args with
  | "table", [name] => .startTable name
  | "raw_sql", [sql] => .startRaw sql .none
  | "raw_sql", [sql, params] => .startRaw sql params
  | "get_connection", [] => .getConnection
  | "close", [] => .close
  | "with", [] => .closeAfterUse
  | name, _ =>
    .misused name (if ["table", "raw_sql", "get_connection", "close"].contains name then
      arityError name else unknownError name)

/-- The action of a qualified name: `db` and `exec` stand for the database and its executor. -/
def ofName (name : String) (statement : List (String × Value)) (args : List Value) : Action :=
  match Binary64.splitAtFirst (· == '.') name.toList with
  | (_, none) => ofCall name args
  | (qualifier, some rest) =>
    let member := String.ofList rest
    if qualifier = ['d', 'b'] then ofDatabaseCall member args
    else requestOf member statement args

end Action

/-- What a step gives; a chained call gives the builder itself. -/
inductive Result where
  | chain
  | value (v : Value)
  | text (s : String)
  | flag (b : Bool)
  | statement (s : Statement)
  | compiled (c : Compiled)
  | frame (f : Frame)
deriving BEq, Repr

namespace Result

def nothing : Result := .value .none

/-- The result of an answer; rows that are only counted give their number. -/
def ofAnswer (countsRows : Bool) : Answer → Result
  | .value (.list rows) => if countsRows then .value (.ofNat rows.length) else .value (.list rows)
  | .value v => .value v
  | .frame f => .frame f

end Result

/-- The outcome of a step with all that was left on the way to it. -/
structure Report where
  outcome : Except Error Result
  events : List Event := []
  records : List Log.Record := []
  spans : List Span := []

namespace Report

/-- A report without events and spans; the error's own records come last. -/
def plain (outcome : Except Error Result) (records : List Log.Record := []) : Report :=
  { outcome := outcome, records := records ++ Error.recordsOf outcome }

def refused (e : Error) : Report := plain (.error e)

end Report

namespace Session

def builder? (s : Session) (name : String) : Option Builder := Fields.get? name s.builders

def builderOrNew (s : Session) (name : String) : Builder := (s.builder? name).getD {}

def store (s : Session) (name : String) (b : Builder) : Session :=
  { s with builders := Fields.insert s.builders name b }

/-- The executor of the session's database, if it has one. -/
def executor? (s : Session) : Option Executor :=
  s.provider.map fun p => ⟨p.handle, .text s.compiler.dialect⟩

/-- The complaint of a terminal call without an executor. -/
def noExecutor : Error :=
  .failure (.ofConnection
    "Query builder has no executor; create queries through Database.query()" none
    .connectionNotConfigured none)

/-- The complaint about a call on a database that is not there. -/
def noDatabase (member : String) : Report :=
  .refused (.raised (.noAttribute (.none : Value) member))

/-- Carries out an order. -/
def carryOut (s : Session) (o : Order) : Session × Report :=
  match s.executor? with
  | none => (s, .plain (.error noExecutor) o.records)
  | some x =>
    let run := x.run o.request o.compiled s.replies
    ({ s with replies := run.rest },
      { outcome := run.outcome.map (Result.ofAnswer o.countsRows)
        events := run.events
        records := o.records ++ run.records ++ Error.recordsOf run.outcome
        spans := run.spans })

/-- A chained call on a new builder, which is stored only when the call is not refused. -/
def start (s : Session) (name member : String) (c : Call) : Session × Report :=
  if s.provider.isNone then (s, noDatabase member)
  else match Builder.chain {} c with
    | (b, none) => (s.store name b, .plain (.ok .nothing))
    | (_, some e) => (s, .refused e)

/-- A direct request about a statement out of named values. -/
def request (s : Session) (q : Request) (statement : List (String × Value)) : Session × Report :=
  match s.executor?, Compiled.ofFields statement with
  | none, _ => (s, noDatabase "executor")
  | some _, .error e => (s, .refused e)
  | some _, .ok c => s.carryOut { request := q, compiled := c }

/-- How a count of arguments is stated. -/
def argumentCount (least greatest : Nat) : String :=
  if least = greatest then toString least else s!"from {least} to {greatest}"

/-- A direct request with too many arguments fails in its span, without attributes. -/
def excessRequest (s : Session) (name : String) (least greatest given : Nat)
    (statement : List (String × Value)) : Report :=
  match s.executor?, Compiled.ofFields statement with
  | none, _ => noDatabase "executor"
  | some _, .error e => .refused e
  | some _, .ok _ =>
    let complaint (callee : String) : Error := .raised (.typeError
      (s!"StatementExecutor.{callee}() takes {argumentCount least greatest} " ++
        s!"positional arguments but {given} were given"))
    let found := Trace.attributes .none (some (.error (complaint "<lambda>")))
    let body : Except Error Result := .error (complaint name)
    let (outcome, span) := Trace.around (Executor.spanName name) "CLIENT" found body
    { outcome := outcome, records := found.records, spans := [span] }

/-- The next reply may refuse the handle itself. -/
def getConnection (s : Session) : Session × Report :=
  if s.provider.isNone then (s, noDatabase "get_connection")
  else
    let (r, rest) := Reply.next s.replies
    match r.faultAt .get with
    | some e => ({ s with replies := rest }, .refused e.toError)
    | none => (s, .plain (.ok .nothing))

/-- Closes the provider if it can be closed. -/
def closeProvider (p : Provider) (result : Result) : Report :=
  { Report.plain (.ok result) with events := if p.closable then [.closeProvider] else [] }

def close (s : Session) : Report :=
  s.provider.elim (noDatabase "close") fun p => closeProvider p .nothing

/-- Uses the database as a resource that is closed at the end of its use. -/
def closeAfterUse (s : Session) : Report :=
  s.provider.elim (.refused (.raised (.typeError "there is no database to be used")))
    fun p => closeProvider p (.flag true)

/-- One step on the builder of a name. -/
def step (s : Session) (name : String) : Action → Session × Report
  | .chain c =>
    let (b, fault) := (s.builderOrNew name).chain c
    (s.store name b, match fault with
      | none => .plain (.ok .chain)
      | some e => .refused e)
  | .finish t =>
    let (b, order) := (s.builderOrNew name).finish s.compiler t
    let s := s.store name b
    match order with
    | .error e => (s, .refused e)
    | .ok o => s.carryOut o
  | .compile =>
    let b := s.builderOrNew name
    (s.store name b, match b.preview s.compiler with
      | .error e => .refused e
      | .ok (c, records) => .plain (.ok (.compiled c)) records)
  | .toSql =>
    let b := s.builderOrNew name
    (s.store name b, match b.preview s.compiler with
      | .error e => .refused e
      | .ok (c, records) => .plain (.ok (.text c.sql)) records)
  | .statement =>
    let b := s.builderOrNew name
    (s.store name b, .plain (.ok (.statement b.statement)))
  | .consumed =>
    let b := s.builderOrNew name
    (s.store name b, .plain (.ok (.flag b.consumed)))
  | .fresh => (s.store name {}, .plain (.ok .nothing))
  | .startTable reference => s.start name "table" (.table reference)
  | .startRaw sql params => s.start name "raw_sql" (.rawSql sql params)
  | .getConnection => s.getConnection
  | .close => (s, s.close)
  | .closeAfterUse => (s, s.closeAfterUse)
  | .request q statement => s.request q statement
  | .excessRequest callee least greatest given statement =>
    (s, s.excessRequest callee least greatest given statement)
  | .wrongArity member =>
    (s.store name (s.builderOrNew name), .refused (.raised (Action.arityError member)))
  | .unknown member =>
    (s.store name (s.builderOrNew name), .refused (.raised (Action.unknownError member)))
  | .misused member e =>
    (s, if s.provider.isNone then noDatabase member else .refused (.raised e))

/-- The steps one after the other, with the reports in order. -/
def run (s : Session) : List (String × Action) → Session × List Report
  | [] => (s, [])
  | (name, action) :: rest =>
    let (s, report) := s.step name action
    let (s, reports) := s.run rest
    (s, report :: reports)

end Session
end FluentSql
