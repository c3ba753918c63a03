import FluentSql.Checked
import FluentSql.Operator
import FluentSql.TableReference
import FluentSql.Value.Coerce

/-!
Joins. A join names a table and how its rows are matched: by a comparison of two columns or by a
condition given as text, exactly one of the two.
-/

namespace FluentSql

inductive JoinCondition where
  | columns (left : String) (operator : Operator) (right : String)
  | text (condition : String)
deriving DecidableEq, Repr

structure Join where
  kind : JoinKind
  table : String
  condition : JoinCondition
deriving DecidableEq, Repr

namespace Join

def isRaw (j : Join) : Bool :=
  match j.condition with
  | .text _ => true
  | .columns .. => false

def checkCondition : Value → Except Error (Option String)
  | .none => .ok none
  | .text s =>
    if (Text.trim s).isEmpty then refuse .emptyJoinCondition else .ok (some (Text.trim s))
  | _ => refuse .emptyJoinCondition

def checkSide (role : String) : Value → Except Error (Option String)
  | .none => .ok none
  | v => do .ok (some (← Identifier.check role v))

def checkOperator : Value → Except Error (Option Operator)
  | .none => .ok none
  | v => do .ok (some (← Operator.check Operator.comparisons v))

/-- The form that the given parts make up. -/
def condition? (text left : Option String) (operator : Option Operator) (right : Option String) :
    Option JoinCondition :=
  match text, left, operator, right with
  | some condition, none, none, none => some (.text condition)
  | none, some left, some operator, some right => some (.columns left operator right)
  | _, _, _, _ => none

/-- A join out of its parts, which have to make up one of the two forms. -/
def ofParts (kind : JoinKind) (table : String) (text left : Option String)
    (operator : Option Operator) (right : Option String) : Except Error Join :=
  match condition? text left operator right with
  | some condition => .ok ⟨kind, table, condition⟩
  | none => refuse (.joinForm table)

/-- A join on a condition given as text. -/
def ofCondition (kind : JoinKind) (table condition : Value) : Except Error Join := do
  let table ← TableReference.check table
  let condition ← checkCondition condition
  ofParts kind table condition none none none

/-- A join on two columns. -/
def ofColumns (kind : JoinKind) (table left operator right : Value) : Except Error Join := do
  let table ← TableReference.check table
  let left ← checkSide "left_field" left
  let operator ← checkOperator operator
  let right ← checkSide "right_field" right
  ofParts kind table none left operator right

def checkKind (v : Value) : Checked JoinKind := .ofOption (v.asText?.bind JoinKind.ofText?)

/-- A join out of plain data. -/
def ofFields (data : List (String × Value)) : Checked Join :=
  let optional {α : Type} (name : String) (check : Value → Except Error (Option α)) :
      Checked (Option α) :=
    checkField data name (.ok none) fun v => .ofExcept (check v)
  let parts :=
    ((((((checkField data "kind" (.ok .inner) checkKind).map
        fun kind table condition left operator right =>
          ofParts kind table condition left operator right).app
      (checkField data "table" (.invalid [""]) fun v => .ofExcept (TableReference.check v))).app
      (optional "condition" checkCondition)).app
      (optional "left_field" (checkSide "left_field"))).app
      (optional "operator" checkOperator)).app
      (optional "right_field" (checkSide "right_field"))
  parts.andThen .ofExcept

def check : Value → Checked Join
  | .map entries => ofFields (Value.namedEntries entries)
  | _ => .invalid [""]

end Join
end FluentSql
