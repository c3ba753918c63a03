import FluentSql.Clause.Statement
import FluentSql.Condition
import FluentSql.Projection

/-!
Chained calls, each of which adds something to a statement or replaces a part of it. They are read
by their names, and then carried out. A refused call leaves the statement as it was, with three
exceptions: a projection claims its operation before its columns are read, a list of grouping
columns is added up to the first one that is refused, and raw text is set before its parameters are
checked.
-/

namespace FluentSql

namespace Statement

/-- Fixes the operation of a statement, which cannot be changed afterwards. -/
def claim (operation : Operation) (s : Statement) : Except Error Statement :=
  match s.operation with
  | none => .ok { s with operation := some operation }
  | some current =>
    if current = operation then .ok s else refuse (.operationConflict current operation)

end Statement

/-- A chained call with its loosely typed arguments. -/
inductive Call where
  | table (name : Value)
  | select (columns : List Value)
  | distinct
  | join (kind : JoinKind) (table first operator second : Value)
  | condition (name : String) (args : List Value)
  | groupBy (columns : List Value)
  | groupByRaw (sql params : Value)
  | having (connector : Connector) (first second third : Value)
  | havingRaw (connector : Connector) (sql params : Value)
  | orderBy (field direction : Value)
  | orderByRaw (sql params : Value)
  | limit (count : Value)
  | offset (count : Value)
  | paginate (page perPage : Value)
  | rawSql (sql params : Value)
  | unconditional
deriving BEq, Repr

namespace Call

/-- The calls that add a join, with the least and the greatest number of their arguments. -/
def joins : List (String × JoinKind × Nat × Nat) :=
  [("join", .inner, 2, 4), ("left_join", .left, 2, 4), ("right_join", .right, 2, 4),
    ("join_on", .inner, 4, 4), ("left_join_on", .left, 4, 4), ("right_join_on", .right, 4, 4),
    ("join_raw", .inner, 2, 2), ("left_join_raw", .left, 2, 2), ("right_join_raw", .right, 2, 2)]

def joinOf? (name : String) (args : List Value) : Option Call :=
  match joins.lookup name, args with
  | some (kind, least, greatest), target :: first :: rest =>
    if least ≤ args.length ∧ args.length ≤ greatest then
      some (.join kind target first (rest[0]?.getD .none) (rest[1]?.getD .none))
    else none
  | _, _ => none

/-- The number of rows on a page when none is given. -/
def defaultPage : Nat := 15

def clauseOf? (name : String) (args : List Value) : Option Call :=
  match name, args with
  | "table", [name] => some (.table name)
  | "select", columns => some (.select columns)
  | "distinct", [] => some .distinct
  | "group_by", columns => some (.groupBy columns)
  | "group_by_raw", [sql] => some (.groupByRaw sql .none)
  | "group_by_raw", [sql, params] => some (.groupByRaw sql params)
  | "having", [first] => some (.having .and first .missing .missing)
  | "having", [first, second] => some (.having .and first second .missing)
  | "having", [first, second, third] => some (.having .and first second third)
  | "or_having", [first] => some (.having .or first .missing .missing)
  | "or_having", [first, second] => some (.having .or first second .missing)
  | "or_having", [first, second, third] => some (.having .or first second third)
  | "having_raw", [sql] => some (.havingRaw .and sql .none)
  | "having_raw", [sql, params] => some (.havingRaw .and sql params)
  | "or_having_raw", [sql] => some (.havingRaw .or sql .none)
  | "or_having_raw", [sql, params] => some (.havingRaw .or sql params)
  | "order_by", [field] => some (.orderBy field (.text Direction.ascending.text))
  | "order_by", [field, direction] => some (.orderBy field direction)
  | "order_by_raw", [sql] => some (.orderByRaw sql .none)
  | "order_by_raw", [sql, params] => some (.orderByRaw sql params)
  | "limit", [count] => some (.limit count)
  | "offset", [count] => some (.offset count)
  | "paginate", [page] => some (.paginate page (.ofNat defaultPage))
  | "paginate", [page, perPage] => some (.paginate page perPage)
  | "raw_sql", [sql] => some (.rawSql sql .none)
  | "raw_sql", [sql, params] => some (.rawSql sql params)
  | "unconditional", [] => some .unconditional
  | _, _ => none

/-- The call of a name and its arguments. -/
def ofName? (name : String) (args : List Value) : Option Call :=
  if Condition.accepts name args.length then some (.condition name args)
  else match joinOf? name args with
    | some c => some c
    | none => clauseOf? name args

/-- The names of the chained calls. -/
def names : List String :=
  Condition.callNames ++ joins.map (·.1) ++
    ["table", "select", "distinct", "group_by", "group_by_raw", "having", "or_having", "having_raw",
      "or_having_raw", "order_by", "order_by_raw", "limit", "offset", "paginate", "raw_sql",
      "unconditional"]

/-- The columns of a projection: sequences stand for their items, no column for all columns. -/
def projection (columns : List Value) : Except Error (List String) := do
  let given := if columns.isEmpty then [.text "*"] else columns
  let items := given.flatMap fun column => (column.sequence?).getD [column]
  let expressions := (← items.mapM Projection.split).flatten
  .ok (if expressions = ["*"] then [] else expressions)

/-- The join that the arguments of a call make up. -/
def joinOf (kind : JoinKind) (table first operator second : Value) : Except Error Join :=
  match operator.isNone, second.isNone with
  | true, true => Join.ofCondition kind table first
  | false, false => Join.ofColumns kind table first operator second
  | _, _ => refuse (.joinArguments table)

/-- The grouping columns up to the first one that is refused. -/
def groupingOf : List Value → List Entry × Option Error
  | [] => ([], none)
  | column :: rest =>
    match GroupEntry.ofColumn column with
    | .error e => ([], some e)
    | .ok entry =>
      let (entries, fault) := groupingOf rest
      (entry :: entries, fault)

/-- The ordering that a column, or a map from columns to directions, asks for. -/
def orderingOf (field direction : Value) : Except Error (List OrderEntry) :=
  match field with
  | .map [] => refuse .emptyOrdering
  | .map entries => entries.mapM fun (column, direction) => OrderEntry.ofColumn column direction
  | column => do .ok [← OrderEntry.ofColumn column direction]

/-- A whole number that is not negative; truth values are none. -/
def natural (argument : String) : Value → Except Error Nat
  | .int n => if n < 0 then refuse (.notNatural argument (.int n)) else .ok n.toNat
  | v => refuse (.notNatural argument v)

/-- Limit and offset of a page; pages are counted from one. -/
def pageOf (page perPage : Value) : Except Error (Nat × Nat) := do
  let page ← natural "page" page
  let perPage ← natural "per_page" perPage
  if page < 1 ∨ perPage < 1 then refuse (.pageTooSmall page perPage)
  else .ok (perPage, (page - 1) * perPage)

/-- The raw text of a statement, which must not be blank. -/
def rawText : Value → Except Error String
  | .text s => if (Text.trim s).isEmpty then refuse .emptyRawSql else .ok s
  | _ => refuse .emptyRawSql

/-- The statement after a change, or the statement as it was when the change is refused. -/
def orKeep (s : Statement) (changed : Except Error Statement) : Statement × Option Error :=
  match changed with
  | .ok changed => (changed, none)
  | .error e => (s, some e)

/-- The statement that a call leaves, and the complaint if the call is refused. -/
def apply (s : Statement) : Call → Statement × Option Error
  | .table name => orKeep s do .ok { s with table := some (← TableReference.check name) }
  | .select columns =>
    match s.claim .select with
    | .error e => (s, some e)
    | .ok s => orKeep s do .ok { s with columns := ← projection columns }
  | .distinct => ({ s with distinct := true }, none)
  | .join kind target first operator second =>
    orKeep s do .ok { s with joins := s.joins ++ [← joinOf kind target first operator second] }
  | .condition name args =>
    orKeep s do .ok { s with predicates := s.predicates ++ [← Condition.ofCall name args] }
  | .groupBy columns =>
    let items := columns.flatMap fun column => (column.sequence?).getD [column]
    if items.isEmpty then (s, some Refusal.emptyGrouping.toError)
    else
      let (entries, fault) := groupingOf items
      ({ s with grouping := s.grouping ++ entries }, fault)
  | .groupByRaw sql params =>
    orKeep s do .ok { s with grouping := s.grouping ++ [← GroupEntry.ofRaw sql params] }
  | .having connector first second third =>
    orKeep s do
      .ok { s with having := s.having ++ [← Condition.resolve first second third connector] }
  | .havingRaw connector sql params =>
    orKeep s do .ok { s with having := s.having ++ [← Node.ofFragment sql params connector] }
  | .orderBy field direction =>
    orKeep s do .ok { s with ordering := s.ordering ++ (← orderingOf field direction) }
  | .orderByRaw sql params =>
    orKeep s do .ok { s with ordering := s.ordering ++ [← OrderEntry.ofRaw sql params] }
  | .limit count => orKeep s do .ok { s with limit := some (← natural "limit" count) }
  | .offset count => orKeep s do .ok { s with offset := some (← natural "offset" count) }
  | .paginate page perPage =>
    orKeep s do
      let (size, start) ← pageOf page perPage
      .ok { s with limit := some size, offset := some start }
  | .rawSql sql params =>
    match rawText sql with
    | .error e => (s, some e)
    | .ok sql =>
      let s := { s with rawSql := some sql }
      orKeep s do .ok { s with rawParams := ← Params.check params }
  | .unconditional => ({ s with unconditional := true }, none)

end Call
end FluentSql
