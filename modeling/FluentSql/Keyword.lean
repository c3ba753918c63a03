/-!
The closed sets of words that statements, compilers and executors are described with. Each has one
spelling, and reading a spelling back gives the word.
-/

namespace FluentSql

/-- What a statement does; `raw` labels a statement given as text. -/
inductive Operation where
  | select
  | insert
  | update
  | delete
  | raw
deriving DecidableEq, Repr

namespace Operation

def text : Operation → String
  | .select => "SELECT"
  | .insert => "INSERT"
  | .update => "UPDATE"
  | .delete => "DELETE"
  | .raw => "EXECUTE_SQL"

def ofText? (s : String) : Option Operation :=
  [Operation.select, .insert, .update, .delete, .raw].find? (·.text == s)

end Operation

/-- How a condition is joined to the one before it. -/
inductive Connector where
  | and
  | or
deriving DecidableEq, Repr, Inhabited

namespace Connector

def text : Connector → String
  | .and => "AND"
  | .or => "OR"

def ofText? (s : String) : Option Connector := [Connector.and, .or].find? (·.text == s)

end Connector

inductive JoinKind where
  | inner
  | left
  | right
deriving DecidableEq, Repr

namespace JoinKind

def text : JoinKind → String
  | .inner => "INNER"
  | .left => "LEFT"
  | .right => "RIGHT"

def ofText? (s : String) : Option JoinKind := [JoinKind.inner, .left, .right].find? (·.text == s)

end JoinKind

inductive Direction where
  | ascending
  | descending
deriving DecidableEq, Repr

namespace Direction

def text : Direction → String
  | .ascending => "ASC"
  | .descending => "DESC"

def ofText? (s : String) : Option Direction :=
  [Direction.ascending, .descending].find? (·.text == s)

end Direction

/-- How the places of bound values are marked: by a mark that is the same everywhere, or by names.
-/
inductive Style where
  | qmark
  | format
  | named
  | pyformat
deriving DecidableEq, Repr

namespace Style

def text : Style → String
  | .qmark => "qmark"
  | .format => "format"
  | .named => "named"
  | .pyformat => "pyformat"

def ofText? (s : String) : Option Style :=
  [Style.qmark, .format, .named, .pyformat].find? (·.text == s)

def isNamed : Style → Bool
  | .named | .pyformat => true
  | .qmark | .format => false

end Style

/-- The shapes that fetched rows are given. -/
inductive FetchStyle where
  | assoc
  | num
  | both
  | column
  | group
deriving DecidableEq, Repr

namespace FetchStyle

def text : FetchStyle → String
  | .assoc => "assoc"
  | .num => "num"
  | .both => "both"
  | .column => "column"
  | .group => "group"

def ofText? (s : String) : Option FetchStyle :=
  [FetchStyle.assoc, .num, .both, .column, .group].find? (·.text == s)

end FetchStyle
end FluentSql
