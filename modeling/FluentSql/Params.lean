import FluentSql.Refusal

/-!
Parameters that come with a text: a list for positional marks, or a map for named ones. Text and
other single values are refused, so that one value is never taken for several.
-/

namespace FluentSql

/-- Parameters as given: a list, or a map whose keys may be any value. -/
inductive Params where
  | list (items : List Value)
  | map (entries : List (Value × Value))
deriving BEq, Repr

namespace Params

def toValue : Params → Value
  | .list items => .list items
  | .map entries => .map entries

/-- The parameters that a value gives, nothing when it is absent. -/
def check : Value → Except Error (Option Params)
  | .none => .ok none
  | .map entries => .ok (some (.map entries))
  | .list items => .ok (some (.list items))
  | .tuple items => .ok (some (.list items))
  | v => refuse (.paramsNotContainer v.typeName)

def optionToValue : Option Params → Value
  | some params => params.toValue
  | none => .none

end Params

/-- Parameters of a raw fragment: the keys of a map are texts. -/
inductive FragmentParams where
  | list (items : List Value)
  | map (entries : List (String × Value))
deriving BEq, Repr

namespace FragmentParams

def isEmpty : FragmentParams → Bool
  | .list items => items.isEmpty
  | .map entries => entries.isEmpty

def toValue : FragmentParams → Value
  | .list items => .list items
  | .map entries => Fields.toValue entries

/-- The names that the keys of a map claim, without leading colons. -/
def claimedNames : FragmentParams → List String
  | .list _ => []
  | .map entries => entries.map fun (key, _) => String.ofList (key.toList.dropWhile (· == ':'))

def optionToValue : Option FragmentParams → Value
  | some params => params.toValue
  | none => .none

end FragmentParams
end FluentSql
