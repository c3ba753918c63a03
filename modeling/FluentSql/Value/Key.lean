import FluentSql.Value.Basic

/-!
Values as keys of maps. Two keys are the same when they are equal as data, where truth values,
whole numbers and floating-point numbers compare by what number they are. Lists, maps and what
holds one of them cannot be keys. Maps from values and maps from names are kept in order of
insertion.
-/

namespace FluentSql

/-- What a value is as a number. -/
inductive Magnitude where
  | whole (n : Int)
  | fraction (x : Binary64)
  | notNumber
deriving DecidableEq

namespace Value

variable {τ : Type}

def magnitude : Value τ → Magnitude
  | .bool b => .whole (if b then 1 else 0)
  | .int n => .whole n
  | .float x => match x.toInt? with
    | some n => .whole n
    | Option.none => .fraction x
  | _ => .notNumber

/-- Numbers compare by magnitude, and `nan` is the same as nothing. -/
def sameNumber (v w : Value τ) : Bool :=
  match v.magnitude, w.magnitude with
  | .whole m, .whole n => m == n
  | .fraction x, .fraction y => x.equal y
  | _, _ => false

section

variable [DecidableEq τ]

mutual

def sameKey : Value τ → Value τ → Bool
  | .none, .none => true
  | .text s, .text t => s == t
  | .bytes bs, .bytes cs => bs == cs
  | .list items, .list others => sameKeys items others
  | .tuple items, .tuple others => sameKeys items others
  | .map entries, .map others => sameEntries entries others && entries.length == others.length
  | .missing, .missing => true
  | v, w => sameNumber v w

def sameKeys : List (Value τ) → List (Value τ) → Bool
  | [], [] => true
  | v :: vs, w :: ws => sameKey v w && sameKeys vs ws
  | _, _ => false

/-- Every entry has its counterpart in the other map, in whatever place. -/
def sameEntries : List (Value τ × Value τ) → List (Value τ × Value τ) → Bool
  | [], _ => true
  | (key, value) :: rest, others =>
    others.any (fun (k, v) => sameKey key k && sameKey value v) && sameEntries rest others

end

@[simp] theorem sameKey_text (s t : τ) : (text s).sameKey (.text t) = decide (s = t) := rfl

@[simp] theorem sameKey_bytes (bs cs : List UInt8) :
    (bytes bs : Value τ).sameKey (.bytes cs) = (bs == cs) := rfl

@[simp] theorem sameKey_tuple (items others : List (Value τ)) :
    (tuple items).sameKey (.tuple others) = sameKeys items others := rfl

end

mutual

/-- Whether a value may be the key of a map. -/
def hashable : Value τ → Bool
  | .list _ => false
  | .map _ => false
  | .tuple items => hashableItems items
  | _ => true

def hashableItems : List (Value τ) → Bool
  | [] => true
  | item :: rest => hashable item && hashableItems rest

end

end Value

namespace Entries

variable {α τ : Type} [DecidableEq τ]

def get? (key : Value τ) (entries : List (Value τ × α)) : Option α :=
  (entries.find? fun (k, _) => k.sameKey key).map (·.2)

/-- A key that is present keeps its place and its spelling and takes the new value. -/
def insert (entries : List (Value τ × α)) (key : Value τ) (value : α) : List (Value τ × α) :=
  match entries with
  | [] => [(key, value)]
  | (k, v) :: rest => if k.sameKey key then (k, value) :: rest else (k, v) :: insert rest key value

/-- The map that arises when the pairs are inserted one after the other. -/
def ofPairs (pairs : List (Value τ × α)) : List (Value τ × α) :=
  pairs.foldl (fun entries (key, value) => insert entries key value) []

end Entries

namespace Fields

variable {α κ : Type}

def keys (fields : List (κ × α)) : List κ := fields.map (·.1)

variable [DecidableEq κ]

def get? (key : κ) (fields : List (κ × α)) : Option α := fields.lookup key

def insert (fields : List (κ × α)) (key : κ) (value : α) : List (κ × α) :=
  match fields with
  | [] => [(key, value)]
  | (k, v) :: rest => if k = key then (k, value) :: rest else (k, v) :: insert rest key value

def insertAll (fields more : List (κ × α)) : List (κ × α) :=
  more.foldl (fun fields (key, value) => insert fields key value) fields

def ofPairs (pairs : List (κ × α)) : List (κ × α) := insertAll [] pairs

def toValue (fields : List (String × Value)) : Value :=
  .map (fields.map fun (key, value) => (.text key, value))

end Fields
end FluentSql
