import FluentSql.Decimal.Binary64
import FluentSql.Text.Codes

/-!
The values that callers pass in and that a database hands back. A map keeps its entries in order of
insertion. An absent argument is a value of its own, since `none` is a value that may be bound, and
a callback is the list of the calls it makes on the group it receives. The texts in a value are
strings, unless it is said of which type they are.
-/

namespace FluentSql

inductive Value (τ : Type := String) where
  | none
  | bool (b : Bool)
  | int (n : Int)
  | float (x : Binary64)
  | text (s : τ)
  | bytes (bs : List UInt8)
  | list (items : List (Value τ))
  | tuple (items : List (Value τ))
  | map (entries : List (Value τ × Value τ))
  | iterator (items : List (Value τ))
  | missing
  | callback (calls : List (String × List (Value τ)))
deriving BEq, Repr, Inhabited

namespace Value

variable {τ : Type}

/-- The name of a value's type, as messages give it. -/
def typeName : Value τ → String
  | .none => "NoneType"
  | .bool _ => "bool"
  | .int _ => "int"
  | .float _ => "float"
  | .text _ => "str"
  | .bytes _ => "bytes"
  | .list _ => "list"
  | .tuple _ => "tuple"
  | .map _ => "dict"
  | .iterator _ => "list_iterator"
  | .missing => "_Missing"
  | .callback _ => "function"

/-- Whether a value counts as present: zero, the empty containers and `none` do not. -/
def truthy [Textual τ] : Value τ → Bool
  | .none => false
  | .bool b => b
  | .int n => n != 0
  | .float x => !x.isZero
  | .text s => !(Textual.codes s).isEmpty
  | .bytes bs => !bs.isEmpty
  | .list items => !items.isEmpty
  | .tuple items => !items.isEmpty
  | .map entries => !entries.isEmpty
  | .iterator _ => true
  | .missing => true
  | .callback _ => true

def isNone : Value τ → Bool
  | .none => true
  | _ => false

def isMissing : Value τ → Bool
  | .missing => true
  | _ => false

/-- The items of a sequence that can be measured and indexed; text is not one. -/
def sequence? : Value τ → Option (List (Value τ))
  | .list items => some items
  | .tuple items => some items
  | _ => Option.none

/-- The items that a container of values gives when it is walked: maps and text are not taken. -/
def items? : Value τ → Option (List (Value τ))
  | .list items => some items
  | .tuple items => some items
  | .iterator items => some items
  | _ => Option.none

def ofOption : Option Value → Value
  | some v => v
  | Option.none => .none

/-- A text or nothing. -/
def ofText? : Option String → Value
  | some s => .text s
  | Option.none => .none

def ofNat (n : Nat) : Value := .int n

/-- A string as a text of whatever type is wanted. -/
def ofString [Textual τ] (s : String) : Value τ := .text (Textual.ofString s)

end Value
end FluentSql
