import FluentSql.Clause.Statement
import FluentSql.Compile.Compiled
import FluentSql.Compile.Compiler
import FluentSql.Compile.Token

/-!
Compilation of statements. The clauses of a SELECT stand in a fixed order: the
projection, the table, joins, WHERE, GROUP BY, HAVING, ORDER BY and the limits. Writes are refused
when they carry a clause they cannot use, and when an UPDATE or DELETE would touch every row without
the caller having said so.
-/

namespace FluentSql

namespace Statement

/-- The table of a statement, read from its stored text. -/
def tablePieces (reference : String) : List Piece :=
  match TableReference.split (.text reference) with
  | .ok ⟨name, some shortName⟩ => [.name name, .text " AS ", .name shortName]
  | .ok ⟨name, none⟩ => [.name name]
  | .error e => [.halt e]

/-- An expression of the projection: a plain name may be quoted, anything else is kept. -/
def columnPieces (column : String) : List Piece :=
  if column ≠ "*" ∧ Identifier.isDottedLine column then [.name column] else [.text column]

def projectionPieces (columns : List String) : List Piece :=
  if columns.isEmpty then [.text "*"] else Piece.separated ", " (columns.map columnPieces)

def joinPieces (j : Join) : List Piece :=
  .text (" " ++ j.kind.text ++ " JOIN ") :: tablePieces j.table ++ .text " ON " ::
    match j.condition with
    | .text condition => [.text condition]
    | .columns left operator right =>
      [.name left, .text (" " ++ operator.text ++ " "), .name right]

/-- The conditions of a clause after its keyword; no conditions, no clause. -/
def conditionPieces (keyword : String) (nodes : List Node) : List Piece :=
  if nodes.isEmpty then []
  else .text (" " ++ keyword ++ " ") :: (Node.clauseTokens nodes).flatMap Token.pieces

def groupEntryPieces (e : Entry) : List Piece :=
  match e.source with
  | .raw sql => [.fragment .grouping sql e.params]
  | .column name => [.name name]

def orderEntryPieces (e : OrderEntry) : List Piece :=
  match e.source with
  | .raw sql => [.fragment .ordering sql e.params]
  | .column name => [.name name, .text (" " ++ e.direction.text)]

def groupingPieces (grouping : List Entry) : List Piece :=
  if grouping.isEmpty then []
  else .text " GROUP BY " :: Piece.separated ", " (grouping.map groupEntryPieces)

def orderingPieces (ordering : List OrderEntry) : List Piece :=
  if ordering.isEmpty then []
  else .text " ORDER BY " :: Piece.separated ", " (ordering.map orderEntryPieces)

/-- A number after its keyword; a number too long to be written is refused. -/
def numberPieces (keyword : String) (n : Nat) : List Piece :=
  if Text.writable n then [.text (keyword ++ toString n)] else [.halt (.raised .tooManyDigits)]

/-- Limit and offset in the way of the dialect; `ordered` says whether an ordering stands before. -/
def pagingPieces (paging : Dialect.Paging) (ordered : Bool) (limit offset : Option Nat) :
    List Piece :=
  match paging, limit, offset with
  | _, none, none => []
  | .fetch, limit, offset =>
    (if ordered then [] else [.text " ORDER BY (SELECT NULL)"]) ++
      numberPieces " OFFSET " (offset.getD 0) ++ .text " ROWS" ::
        match limit with
        | some n => numberPieces " FETCH NEXT " n ++ [.text " ROWS ONLY"]
        | none => []
  | .limit unbounded, limit, offset =>
    (match limit, unbounded with
      | some n, _ => numberPieces " LIMIT " n
      | none, some stand => [.text (" LIMIT " ++ stand)]
      | none, none => []) ++
      match offset with
      | some n => numberPieces " OFFSET " n
      | none => []

/-- A SELECT up to its ordering. -/
def coreSelectPieces (s : Statement) : List Piece :=
  .text (if s.distinct then "SELECT DISTINCT " else "SELECT ") :: projectionPieces s.columns ++
    .text " FROM " :: tablePieces (s.table.getD "") ++ s.joins.flatMap joinPieces ++
    conditionPieces "WHERE" s.predicates ++ groupingPieces s.grouping ++
    conditionPieces "HAVING" s.having

def selectPieces (dialect : String) (s : Statement) : List Piece :=
  s.coreSelectPieces ++ orderingPieces s.ordering ++
    pagingPieces (Dialect.paging dialect) (!s.ordering.isEmpty) s.limit s.offset

def insertPieces (s : Statement) : List Piece :=
  .text "INSERT INTO " :: tablePieces (s.table.getD "") ++ .text " (" ::
    Piece.separated ", " (s.values.map fun (column, _) => [.name column]) ++ .text ") VALUES (" ::
    Piece.separated ", " (s.values.map fun (_, value) => [.bound value]) ++ [.text ")"]

def updatePieces (s : Statement) : List Piece :=
  .text "UPDATE " :: tablePieces (s.table.getD "") ++ .text " SET " ::
    Piece.separated ", " (s.values.map fun (column, value) =>
      [.name column, .text " = ", .bound value]) ++
    conditionPieces "WHERE" s.predicates

def deletePieces (s : Statement) : List Piece :=
  .text "DELETE FROM " :: tablePieces (s.table.getD "") ++ conditionPieces "WHERE" s.predicates

/-- The clauses in use, by the names that reports give them. -/
def usedClauses (s : Statement) : List String :=
  [("columns", !s.columns.isEmpty), ("distinct", s.distinct), ("join", !s.joins.isEmpty),
    ("where", !s.predicates.isEmpty), ("group_by", !s.grouping.isEmpty),
    ("having", !s.having.isEmpty), ("order_by", !s.ordering.isEmpty),
    ("limit/offset", s.isPaginated)].filterMap fun (name, used) => if used then some name else none

def rejectClauses (operation : Operation) (allowed : List String) (s : Statement) :
    Except Error Unit :=
  let stray := s.usedClauses.filter (!allowed.contains ·)
  if stray.isEmpty then .ok () else refuse (.strayClauses operation stray)

def requireValues (operation : Operation) (s : Statement) : Except Error Unit :=
  if s.values.isEmpty then refuse (.noValues operation) else .ok ()

/-- The table as reports show it. -/
def tableText (s : Statement) : String := s.table.getD "None"

def requireTable (s : Statement) : Except Error Unit :=
  if (s.table.getD "").isEmpty then refuse .noTable else .ok ()

/-- A write needs a condition or a word that none is wanted. -/
def guardWrite (operation : Operation) (allowed : Bool) (s : Statement) : Except Error Unit :=
  if !s.predicates.isEmpty || s.unconditional || allowed then .ok ()
  else refuse (.unguardedWrite operation s.tableText)

/-- The parameters of all raw fragments, wherever they stand. -/
def fragmentParams (s : Statement) : List FragmentParams :=
  Node.fragmentParamsOf s.predicates ++ Node.fragmentParamsOf s.having ++
    s.grouping.filterMap Entry.params ++ s.ordering.filterMap (·.params)

/-- The names that fragments claim. -/
def reservedNames (s : Statement) : List String :=
  s.fragmentParams.flatMap FragmentParams.claimedNames

/-- The pieces of a statement for an operation, once the operation's rules are met. -/
def piecesFor (k : Compiler) (s : Statement) : Operation → Except Error (List Piece)
  | .select => .ok (s.selectPieces k.dialect)
  | .insert => do
    s.rejectClauses .insert []
    s.requireValues .insert
    .ok s.insertPieces
  | .update => do
    s.rejectClauses .update ["where"]
    s.requireValues .update
    s.guardWrite .update k.allowUnconditionalWrites.truthy
    .ok s.updatePieces
  | .delete => do
    s.rejectClauses .delete ["where"]
    s.guardWrite .delete k.allowUnconditionalWrites.truthy
    .ok s.deletePieces
  | .raw => refuse (.unknownOperation .raw)

end Statement

namespace Compiler

/-- Compiles a statement that was given as text: nothing is checked or changed. -/
def compileRaw (s : Statement) (sql : String) : Compiled where
  sql := sql
  parameters := Params.optionToValue s.rawParams
  operation := some Operation.raw.text

/-- Compiles a statement. -/
def compile (k : Compiler) (s : Statement) : Except Error Compiled :=
  match s.rawSql with
  | some sql => .ok (compileRaw s sql)
  | none =>
    match s.operation with
    | none => refuse .noOperation
    | some operation => do
      s.requireTable
      let pieces ← s.piecesFor k operation
      let (sql, parameters) ← k.write s.reservedNames pieces
      .ok ⟨sql, parameters, some operation.text, s.table⟩

/-- The name of the counted column. -/
def countColumn : String := "aggregate"

/-- The counting form of a SELECT. It counts the rows of the statement itself when rows are grouped,
made distinct or limited, and replaces the projection otherwise. -/
def countPieces (k : Compiler) (s : Statement) : List Piece :=
  if !s.grouping.isEmpty || !s.having.isEmpty || s.distinct || s.isPaginated then
    let inner := if s.isPaginated then s else { s with ordering := [] }
    .text ("SELECT COUNT(*) AS " ++ countColumn ++ " FROM (") :: inner.selectPieces k.dialect ++
      [.text (") AS " ++ countColumn ++ "_table")]
  else
    Statement.selectPieces k.dialect
      { s with columns := ["COUNT(*) AS " ++ countColumn], ordering := [] }

/-- Compiles the counting form of a statement. -/
def compileCount (k : Compiler) (s : Statement) : Except Error Compiled :=
  if s.isRaw then refuse .rawCount
  else match s.operation.filter (· ≠ .select) with
    | some operation => refuse (.countOperation operation)
    | none => do
      s.requireTable
      let (sql, parameters) ← k.write s.reservedNames (k.countPieces s)
      .ok ⟨sql, parameters, some Operation.select.text, s.table⟩

end Compiler
end FluentSql
