import FluentSql.Compile.Compiled
import FluentSql.Database.Reply

/-!
One exchange with a database: a statement is executed, its result is read, and a write is committed.
With an engine the exchange happens on a connection of its own, which is released in every case; a
live connection is used as it is.
-/

namespace FluentSql

/-- How an exchange reads its result, and whether it writes. -/
structure Exchange where
  /-- Rows or a scalar are fetched. -/
  fetches : Bool
  /-- The result is closed after fetching. -/
  closes : Bool := false
  /-- The exchange is committed at its end. -/
  writes : Bool := false
deriving DecidableEq, Repr

namespace Exchange

/-- The point at which an exchange looks at its result, if it does. -/
def resultPoint? (x : Exchange) : Option Point :=
  if x.fetches then some .fetch else if x.writes then some .read else none

/-- The events on a connection, and the exception that ends them early. -/
def onConnection (x : Exchange) (sql : String) (parameters : Value) (r : Reply) :
    List Event × Option Raised :=
  match r.faultAt .exec with
  | some e => ([.exec sql parameters], some e)
  | none =>
    match x.resultPoint?.bind r.faultAt with
    | some e => ([.exec sql parameters], some e)
    | none => (.exec sql parameters :: if x.closes then [.closeResult] else [], none)

/-- The events of an exchange through an engine. -/
def onEngine (x : Exchange) (sql : String) (parameters : Value) (r : Reply) :
    List Event × Option Raised :=
  match r.faultAt .connect with
  | some e => ([.connect], some e)
  | none =>
    match x.onConnection sql parameters r with
    | (events, some e) => (.connect :: events ++ [.release], some e)
    | (events, none) =>
      if x.writes then (.connect :: events ++ [.commit, .release], r.faultAt .commit)
      else (.connect :: events ++ [.release], none)

/-- The events of an exchange through a provider's handle. -/
def run (x : Exchange) (handle : Handle) (sql : String) (parameters : Value) (r : Reply) :
    List Event × Option Raised :=
  match r.faultAt .get with
  | some e => ([], some e)
  | none =>
    match handle with
    | .engine => x.onEngine sql parameters r
    | .live => x.onConnection sql parameters r

end Exchange
end FluentSql
