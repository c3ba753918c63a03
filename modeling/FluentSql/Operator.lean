import FluentSql.Refusal
import FluentSql.Text.Blank
import FluentSql.Text.Case

/-!
Operators of conditions. An operator is given as text in any case and with any blanks; its normal
form is in upper case with single spaces. Some operators compare with one value, some with a list of
values and some with a range.
-/

namespace FluentSql

inductive Operator where
  | eq
  | ne
  | unequal
  | lt
  | le
  | gt
  | ge
  | like
  | notLike
  | ilike
  | is
  | isNot
  | among
  | notAmong
  | between
  | notBetween
deriving DecidableEq, Repr

namespace Operator

def text : Operator → String
  | .eq => "="
  | .ne => "!="
  | .unequal => "<>"
  | .lt => "<"
  | .le => "<="
  | .gt => ">"
  | .ge => ">="
  | .like => "LIKE"
  | .notLike => "NOT LIKE"
  | .ilike => "ILIKE"
  | .is => "IS"
  | .isNot => "IS NOT"
  | .among => "IN"
  | .notAmong => "NOT IN"
  | .between => "BETWEEN"
  | .notBetween => "NOT BETWEEN"

/-- The operators in the order of their texts. -/
def all : List Operator :=
  [.ne, .lt, .le, .unequal, .eq, .gt, .ge, .between, .ilike, .among, .is, .isNot, .like,
    .notBetween, .notAmong, .notLike]

/-- The operators that may stand between two columns, in the order of their texts. -/
def comparisons : List Operator := [.ne, .lt, .le, .unequal, .eq, .gt, .ge]

def ofText? (s : String) : Option Operator := all.find? (·.text == s)

/-- The operator takes a list of values. -/
def takesList : Operator → Bool
  | .among | .notAmong => true
  | _ => false

/-- The operator takes a lower and an upper bound. -/
def takesRange : Operator → Bool
  | .between | .notBetween => true
  | _ => false

/-- The operator tests for absence when it is given nothing. -/
def testsNull : Operator → Bool
  | .eq | .is => true
  | _ => false

/-- The operator tests for presence when it is given nothing. -/
def testsNotNull : Operator → Bool
  | .ne | .unequal | .isNot => true
  | _ => false

/-- The normal form of an operator's text. -/
def normalForm (s : String) : String := Text.upper (" ".intercalate (Text.words s))

/-- The normal form of a value given as operator, which must be one of the allowed texts. -/
def normalize (allowed : List String) : Value → Except Error String
  | .text s =>
    let normal := normalForm s
    if allowed.contains normal then .ok normal
    else refuse (.unknownOperator s (allowed.mergeSort (· ≤ ·)))
  | v => refuse (.operatorNotText v.typeName)

/-- The operator that a value gives, out of a list of operators. -/
def check (allowed : List Operator) : Value → Except Error Operator
  | .text s =>
    match allowed.find? (·.text == normalForm s) with
    | some operator => .ok operator
    | none => refuse (.unknownOperator s (allowed.map text))
  | v => refuse (.operatorNotText v.typeName)

end Operator
end FluentSql
