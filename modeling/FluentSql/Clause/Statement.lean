import FluentSql.Clause.Entry
import FluentSql.Clause.Join

/-!
Statements, as pure data. Everything that was asked for is kept side by side; which parts an
operation can use is decided when the statement is compiled. When raw text is set, nothing else
counts.
-/

namespace FluentSql

structure Statement where
  operation : Option Operation := none
  table : Option String := none
  columns : List String := []
  distinct : Bool := false
  values : List (String × Value) := []
  joins : List Join := []
  predicates : List Node := []
  having : List Node := []
  grouping : List Entry := []
  ordering : List OrderEntry := []
  limit : Option Nat := none
  offset : Option Nat := none
  rawSql : Option String := none
  rawParams : Option Params := none
  unconditional : Bool := false
deriving BEq, Repr, Inhabited

namespace Statement

def isRaw (s : Statement) : Bool := s.rawSql.isSome

def isPaginated (s : Statement) : Bool := s.limit.isSome || s.offset.isSome

/-- A check of a value that may be absent. -/
def optional {α : Type} (read : Value → Option α) : Value → Checked (Option α)
  | .none => .ok none
  | v => .ofOption ((read v).map some)

/-- A check of each item of a sequence. -/
def checkItems {α : Type} (check : Value → Checked α) (v : Value) : Checked (List α) :=
  match v.items? with
  | some items => Checked.all check items
  | none => .invalid [""]

/-- A statement out of plain data. -/
def ofFields (data : List (String × Value)) : Checked Statement :=
  let fieldOr {α : Type} (name : String) (absent : α) (check : Value → Checked α) : Checked α :=
    checkField data name (.ok absent) check
  let texts := checkItems fun v => .ofOption v.asText?
  let flag := fun (v : Value) => Checked.ofOption v.asBool?
  let number := optional Value.asNat?
  ((((((((((((((((fieldOr "operation" none (optional fun v => v.asText?.bind Operation.ofText?)).map
      Statement.mk).app
    (fieldOr "table" none (optional Value.asText?))).app
    (fieldOr "columns" [] texts)).app
    (fieldOr "distinct" false flag)).app
    (fieldOr "values" [] fun v => .ofOption v.asFields?)).app
    (fieldOr "joins" [] (checkItems Join.check))).app
    (fieldOr "predicates" [] Node.checkList)).app
    (fieldOr "having" [] Node.checkList)).app
    (fieldOr "grouping" [] (checkItems GroupEntry.check))).app
    (fieldOr "ordering" [] (checkItems OrderEntry.check))).app
    (fieldOr "limit" none number)).app
    (fieldOr "offset" none number)).app
    (fieldOr "raw_sql" none (optional Value.asText?))).app
    (fieldOr "raw_params" none fun v => .ofExcept (Params.check v))).app
    (fieldOr "unconditional" false flag))

/-- The statement with values put among its conditions unchecked. -/
def withStrays (s : Statement) (values : List Value) : Statement :=
  { s with predicates := s.predicates ++ values.map Node.stray }

def check : Value → Checked Statement
  | .map entries => ofFields (Value.namedEntries entries)
  | _ => .invalid [""]

end Statement
end FluentSql
