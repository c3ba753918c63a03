import FluentSql.Decimal.Shortest
import FluentSql.Text.Digits
import FluentSql.Text.Quoted
import FluentSql.Value.Basic

/-!
The text of values. `display` is the form with quotes around text, used for what stands inside
containers; `toText` gives a text as it is and everything else in its displayed form, and `codes`
the code points of this. A value that holds a number of too many digits has no text, which whoever
asks for it has to refuse.
-/

namespace FluentSql
namespace Value

variable {τ : Type}

section

variable [Textual τ]

mutual

def display : Value τ → String
  | .none => "None"
  | .bool b => if b then "True" else "False"
  | .int n => toString n
  | .float x => x.toText
  | .text s => Text.quotedCodes (Textual.codes s)
  | .bytes bs => Text.quotedBytes bs
  | .list items => "[" ++ displayItems items ++ "]"
  | .tuple [item] => "(" ++ display item ++ ",)"
  | .tuple items => "(" ++ displayItems items ++ ")"
  | .map entries => "\x7b" ++ displayEntries entries ++ "\x7d"
  | .iterator _ => "<list_iterator object>"
  | .missing => "MISSING"
  | .callback _ => "<function>"

/-- The displayed items with a comma and a space between them. -/
def displayItems : List (Value τ) → String
  | [] => ""
  | [item] => display item
  | item :: rest => display item ++ ", " ++ displayItems rest

def displayEntries : List (Value τ × Value τ) → String
  | [] => ""
  | [(key, value)] => display key ++ ": " ++ display value
  | (key, value) :: rest => display key ++ ": " ++ display value ++ ", " ++ displayEntries rest

end

def codes : Value τ → List Nat
  | .text s => Textual.codes s
  | v => codesOf (display v)

end

def toText : Value → String
  | .text s => s
  | v => display v

mutual

/-- Whether all numbers in a value have few enough digits to be written. -/
def isWritable : Value τ → Bool
  | .int n => Text.writable n.natAbs
  | .list items => allWritable items
  | .tuple items => allWritable items
  | .map entries => entriesWritable entries
  | _ => true

def allWritable : List (Value τ) → Bool
  | [] => true
  | item :: rest => isWritable item && allWritable rest

def entriesWritable : List (Value τ × Value τ) → Bool
  | [] => true
  | (key, value) :: rest => isWritable key && isWritable value && entriesWritable rest

end

end Value
end FluentSql
