import FluentSql.Failure

/-!
Log records as a handler receives them: a level, a logger, a message, named extra values, and the
exception that goes with the record, if there is one. Every failure of this library is logged once,
when it arises; only failures of the database or the connection are logged as errors.
-/

namespace FluentSql.Log

inductive Level where
  | notset
  | debug
  | info
  | warning
  | error
  | critical
deriving DecidableEq, Repr

namespace Level

def text : Level → String
  | .notset => "NOTSET"
  | .debug => "DEBUG"
  | .info => "INFO"
  | .warning => "WARNING"
  | .error => "ERROR"
  | .critical => "CRITICAL"

/-- The rank of a level; a handler passes the records whose rank is not below its own. -/
def rank : Level → Nat
  | .notset => 0
  | .debug => 10
  | .info => 20
  | .warning => 30
  | .error => 40
  | .critical => 50

def all : List Level := [.notset, .debug, .info, .warning, .error, .critical]

/-- The level of a name in upper case; two levels have a second name. -/
def ofText? (s : String) : Option Level :=
  if s = "WARN" then some .warning
  else if s = "FATAL" then some .critical
  else all.find? (·.text == s)

def passes (threshold level : Level) : Bool := threshold.rank ≤ level.rank

end Level

structure Record where
  level : Level
  logger : String
  message : String
  extra : List (String × Value) := []
  cause : Option Failure.Cause := none
deriving BEq, Repr

def Record.hasException (r : Record) : Bool := r.cause.isSome

/-- The loggers of this library. -/
def rootLogger : String := "sqlchain"

def failureLogger : String := "sqlchain.common.exceptions"

def compilerLogger : String := "sqlchain.compiler.statement_compiler"

def executorLogger : String := "sqlchain.executor.statement_executor"

def engineLogger : String := "sqlchain.connection.engine"

def traceLogger : String := "sqlchain.utils.decorators"

/-- The records that reach a handler of a level. -/
def visible (threshold : Level) (records : List Record) : List Record :=
  records.filter fun r => threshold.passes r.level

end FluentSql.Log

namespace FluentSql

/-- The record of a failure. -/
def Failure.record (f : Failure) : Log.Record where
  level := if f.code.category.isExecution then .error else .debug
  logger := Log.failureLogger
  message := f.message
  extra := [("error_code", .text f.code.text), ("details", Fields.toValue f.details)]
  cause := f.cause

/-- The records that an error leaves when it arises; only failures of this library leave one. -/
def Error.records : Error → List Log.Record
  | .failure f => [f.record]
  | _ => []

/-- The records of an outcome. -/
def Error.recordsOf {α : Type} : Except Error α → List Log.Record
  | .ok _ => []
  | .error e => e.records

end FluentSql
