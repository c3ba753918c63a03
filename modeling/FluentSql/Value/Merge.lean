import FluentSql.Failure

/-!
Maps grown by loosely typed values: by another map, or by a container of pairs. Pairs are inserted
one after the other, so those before the first one that is refused stay.
-/

namespace FluentSql

/-- What a value gives when it is walked: the characters of a text, the numbers of bytes, the keys
of a map, the items of a container. -/
def Value.walk? {τ : Type} [Textual τ] : Value τ → Option (List (Value τ))
  | .text s => some ((Textual.characters s).map .text)
  | .bytes bs => some (bs.map fun b => .int b.toNat)
  | .map entries => some (entries.map (·.1))
  | v => v.items?

namespace Entries

variable {τ : Type} [Textual τ]

/-- The key and the value that an item stands for. -/
def pairOf (index : Nat) (item : Value τ) : Except Raised (Value τ × Value τ) :=
  match item.walk? with
  | some [key, v] =>
    if key.hashable then .ok (key, v)
    else .error (.typeError s!"unhashable type: '{key.typeName}'")
  | some items => .error (.valueError
      s!"dictionary update sequence element #{index} has length {items.length}; 2 is required")
  | none => .error (.typeError
      s!"cannot convert dictionary update sequence element #{index} to a sequence")

variable [DecidableEq τ]

/-- The entries with pairs inserted, and what is wrong with the first item that is no pair. -/
def insertItems (entries : List (Value τ × Value τ)) (index : Nat) :
    List (Value τ) → List (Value τ × Value τ) × Option Raised
  | [] => (entries, none)
  | item :: rest =>
    match pairOf index item with
    | .ok (key, v) => insertItems (insert entries key v) (index + 1) rest
    | .error e => (entries, some e)

/-- The entries with those of a value inserted, and what is wrong with the value. -/
def merge (entries : List (Value τ × Value τ)) (more : Value τ) :
    List (Value τ × Value τ) × Option Raised :=
  match more with
  | .map added => (added.foldl (fun entries (key, v) => insert entries key v) entries, none)
  | v =>
    match v.walk? with
    | some items => insertItems entries 0 items
    | none => (entries, some (.typeError s!"'{v.typeName}' object is not iterable"))

end Entries
end FluentSql
