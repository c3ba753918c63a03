import FluentSql.Failure

/-!
What a database is seen to do. A reply is its answer to one statement, and may hold an exception
together with the point at which it is raised. An event is a thing asked of the database.
-/

namespace FluentSql

/-- The points of an exchange at which a database can fail. A result is fetched when its rows are
wanted; a write reads its row id or its number of rows instead. -/
inductive Point where
  | get
  | connect
  | exec
  | fetch
  | read
  | commit
deriving DecidableEq, Repr

structure Reply where
  keys : List String := []
  rows : List (List Value) := []
  scalar : Value := .none
  rowCount : Value := .int 0
  lastRowId : Value := .none
  fault : Option (Point × Raised) := none
deriving BEq, Repr, Inhabited

namespace Reply

/-- The exception that a reply raises at a point. -/
def faultAt (r : Reply) (p : Point) : Option Raised :=
  match r.fault with
  | some (q, e) => if q = p then some e else none
  | none => none

/-- The next reply, which is empty once all are used, and the replies after it. -/
def next : List Reply → Reply × List Reply
  | [] => ({}, [])
  | r :: rest => (r, rest)

end Reply

inductive Event where
  | connect
  | exec (sql : String) (parameters : Value)
  | closeResult
  | commit
  | release
  | closeProvider
deriving BEq, Repr

/-- The text that an event executes, with its parameters. -/
def Event.statement? : Event → Option (String × Value)
  | .exec sql parameters => some (sql, parameters)
  | _ => none

/-- What a provider hands out: an engine that connections are taken from, or a live connection that
belongs to the caller. -/
inductive Handle where
  | engine
  | live
deriving DecidableEq, Repr

end FluentSql
