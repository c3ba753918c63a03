import FluentSql.Builder.Call
import FluentSql.Compile.Statement
import FluentSql.Executor

/-!
Terminal calls. Each of them fixes what the statement is for, says what is asked of the executor,
and compiles. A statement given as text is compiled as it is, whichever call ends it.
-/

namespace FluentSql

/-- A terminal call with its loosely typed arguments. -/
inductive Terminal where
  | get (style : Value)
  | one (style : Value)
  | count
  | dataframe
  | insert (values : Value)
  | update (values : Value)
  | delete
  | execute
deriving BEq, Repr

/-- What a terminal call comes to: a compiled statement and a request about it. When rows are
counted, the answer is their number. -/
structure Order where
  request : Request
  compiled : Compiled
  countsRows : Bool := false
  records : List Log.Record := []
deriving BEq, Repr

/-- The record of a statement that was compiled. -/
def Compiled.record (c : Compiled) : Log.Record where
  level := .debug
  logger := Log.compilerLogger
  message := "Statement compiled"
  extra := [("db.operation", Value.ofText? c.operation), ("db.table", Value.ofText? c.table)]

namespace Terminal

def defaultStyle : Value := .text FetchStyle.assoc.text

def ofName? (name : String) (args : List Value) : Option Terminal :=
  match name, args with
  | "get", [] => some (.get defaultStyle)
  | "get", [style] => some (.get style)
  | "one", [] => some (.one defaultStyle)
  | "one", [style] => some (.one style)
  | "count", [] => some .count
  | "dataframe", [] => some .dataframe
  | "insert", [] => some (.insert .none)
  | "insert", [values] => some (.insert values)
  | "update", [] => some (.update .none)
  | "update", [values] => some (.update values)
  | "delete", [] => some .delete
  | "execute", [] => some .execute
  | _, _ => none

def names : List String :=
  ["get", "one", "count", "dataframe", "insert", "update", "delete", "execute"]

/-- The column values that a map gives, by checked names. -/
def columnValues (operation : Operation) : Value → Except Error (List (String × Value))
  | .map (entry :: entries) => do
    .ok (Fields.ofPairs (← (entry :: entries).mapM fun (column, v) => do
      .ok (← Identifier.check "column" column, v)))
  | _ => refuse (.missingValues operation)

/-- A statement that claims an operation and takes values for it. -/
def claimWith (s : Statement) (operation : Operation) (values : Value) :
    Statement × Option Error :=
  match s.claim operation with
  | .error e => (s, some e)
  | .ok s => Call.orKeep s do .ok { s with values := ← columnValues operation values }

/-- A statement that claims an operation. -/
def claimOnly (s : Statement) (operation : Operation) : Statement × Option Error :=
  Call.orKeep s (s.claim operation)

/-- The statement that a terminal call makes its own, and the complaint if it cannot. -/
def prepare (s : Statement) : Terminal → Statement × Option Error
  | .execute => if s.isRaw then (s, none) else (s, some Refusal.executeNeedsRaw.toError)
  | t =>
    if s.isRaw then (s, none)
    else match t with
      | .insert values => claimWith s .insert values
      | .update values => claimWith s .update values
      | .delete => claimOnly s .delete
      | _ => claimOnly s .select

/-- The style that an argument names, in any case. -/
def checkStyle (given : Value) : Except Error FetchStyle :=
  match given with
  | .text s =>
    match FetchStyle.ofText? (Text.lower s) with
    | some style => .ok style
    | none => refuse (.unknownFetchStyle given)
  | _ => refuse (.unknownFetchStyle given)

/-- The request that a terminal call makes about its statement. -/
def request (isRaw : Bool) : Terminal → Except Error Request
  | .get style => do .ok (.all (.text (← checkStyle style).text))
  | .one style => do
    let style ← checkStyle style
    if style = .group then refuse .groupForOne else .ok (.first (.text style.text))
  | .count => .ok (if isRaw then .all (.text FetchStyle.num.text) else .scalar)
  | .dataframe => .ok .frame
  | .insert _ => .ok .insert
  | .update _ | .delete | .execute => .ok .execute

/-- One row is asked for with a limit, unless there is one. -/
def limited (s : Statement) : Terminal → Statement
  | .one _ => if s.isRaw || s.limit.isSome then s else { s with limit := some 1 }
  | _ => s

def countsRows (s : Statement) : Terminal → Bool
  | .count => s.isRaw
  | _ => false

def isCount : Terminal → Bool
  | .count => true
  | _ => false

/-- Compiles for a terminal call; only the compilation of a statement that is not raw and not
counted is recorded. -/
def compile (k : Compiler) (s : Statement) (t : Terminal) :
    Except Error (Compiled × List Log.Record) := do
  if s.isRaw then .ok (← k.compile s, [])
  else if t.isCount then .ok (← k.compileCount s, [])
  else
    let c ← k.compile s
    .ok (c, [c.record])

/-- The order that a terminal call comes to, and the statement that it leaves. -/
def finish (k : Compiler) (s : Statement) (t : Terminal) : Statement × Except Error Order :=
  match t.prepare s with
  | (s, some e) => (s, .error e)
  | (s, none) =>
    match t.request s.isRaw with
    | .error e => (s, .error e)
    | .ok q =>
      let s := t.limited s
      (s, do
        let (c, records) ← t.compile k s
        .ok ⟨q, c, t.countsRows s, records⟩)

end Terminal
end FluentSql
