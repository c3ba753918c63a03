import FluentSql.Params
import FluentSql.Refusal

/-!
Compiled text before it is written. A statement becomes a list of pieces that does not depend on the
placeholder style or on quoting: fixed text, names that may be quoted, places of bound values, and
raw fragments with their own parameters. A piece may also stand for a refusal, which stops the
writing where it is reached.
-/

namespace FluentSql

/-- The clauses that take raw fragments, as reports name them. -/
inductive FragmentClause where
  | condition
  | grouping
  | ordering
deriving DecidableEq, Repr

def FragmentClause.text : FragmentClause → String
  | .condition => "where_raw"
  | .grouping => "group_by_raw"
  | .ordering => "order_by_raw"

inductive Piece where
  | text (s : String)
  | name (s : String)
  | bound (value : Value)
  | fragment (clause : FragmentClause) (sql : String) (params : Option FragmentParams)
  | halt (e : Error)

namespace Piece

/-- Lists of pieces with a separator between them. -/
def separated (separator : String) : List (List Piece) → List Piece
  | [] => []
  | [pieces] => pieces
  | pieces :: rest => pieces ++ .text separator :: separated separator rest

end Piece
end FluentSql
