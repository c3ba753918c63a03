import FluentSql.Failure

/-!
Frames: a result set column by column. A column that holds numbers only is brought to one kind of
number, where an absent cell counts as `nan`; in a column of texts an absent cell counts as `nan`
too. Every other column keeps its cells as they are.
-/

namespace FluentSql

structure Frame where
  columns : List String
  data : List (List Value)
  rows : Nat
deriving BEq, Repr

namespace Frame

/-- The numbers seen in a column so far. -/
structure Census where
  absent : Bool := false
  nan : Bool := false
  float : Bool := false
  whole : Bool := false
  negative : Bool := false
  unsigned : Bool := false
deriving DecidableEq

namespace Census

/-- The bound of the signed machine type. -/
def signedBound : Int := 9223372036854775808

/-- Counts a whole number in; nothing when no machine type holds it together with the others. -/
def addWhole? (c : Census) (n : Int) : Option Census :=
  let c := { c with
    whole := true
    negative := c.negative || n < 0
    unsigned := c.unsigned || signedBound ≤ n }
  if (c.negative && c.unsigned) || n < -signedBound || 2 * signedBound ≤ n then none else some c

/-- Counts a cell in; nothing when the column does not hold numbers of one kind. -/
def add? (c : Census) : Value → Option Census
  | .none => some { c with absent := true }
  | .float .nan => some { c with nan := true }
  | .float _ => some { c with float := true }
  | .int n => c.addWhole? n
  | _ => none

def ofCells? (cells : List Value) : Option Census := cells.foldlM add? {}

/-- The cells become floating-point numbers. -/
def floats (c : Census) : Bool := c.float || c.nan || (c.absent && c.whole)

end Census

def asFloat : Value → Value
  | .none => .float .nan
  | .int n => .float (.ofInt n)
  | v => v

/-- Whether a cell may stand in a column of texts. -/
def isTextOrAbsent : Value → Bool
  | .text _ | .none | .float .nan => true
  | _ => false

/-- A column of texts has at least one text. -/
def isTextColumn (cells : List Value) : Bool :=
  cells.all isTextOrAbsent && cells.any fun v => v.typeName == "str"

/-- An absent cell in a column of texts. -/
def fillAbsent : Value → Value
  | .none => .float .nan
  | v => v

/-- The cells of a column, brought to one kind where that is possible. -/
def unify (cells : List Value) : List Value :=
  match Census.ofCells? cells with
  | some c => if c.floats then cells.map asFloat else cells
  | none => if isTextColumn cells then cells.map fillAbsent else cells

/-- The cells of each of the first `width` columns; a short row is filled up with nothing. -/
def columnsOf (width : Nat) (rows : List (List Value)) : List (List Value) :=
  (List.range width).map fun i => rows.map fun row => row[i]?.getD .none

def width (rows : List (List Value)) : Nat := (rows.map List.length).foldl max 0

/-- The frame of a result set, whose rows have to be as wide as the list of its columns. -/
def ofRows (keys : List String) (rows : List (List Value)) : Except Raised Frame :=
  if rows.isEmpty then .ok ⟨keys, keys.map fun _ => [], 0⟩
  else if width rows ≠ keys.length then
    .error (.valueError
      s!"{keys.length} columns passed, passed data had {width rows} columns")
  else
    .ok ⟨keys, (columnsOf keys.length rows).map unify, if keys.isEmpty then 0 else rows.length⟩

end Frame
end FluentSql
