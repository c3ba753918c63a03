import FluentSql.Decimal.Places

/-!
Text and numbers in fields. A field has a least width, and what is shorter is filled up with spaces,
or with zeros between what leads a number and its digits.
-/

namespace FluentSql.Log

/-- How a field is filled up and how a number in it is marked. -/
structure Flags where
  left : Bool := false
  plus : Bool := false
  blank : Bool := false
  alternate : Bool := false
  zero : Bool := false
deriving DecidableEq, Repr

namespace Padded

def isHexOrOctal (letter : Char) : Bool := letter == 'x' || letter == 'X' || letter == 'o'

/-- A written number: its sign, what stands in front of its digits, and the digits. -/
structure Written where
  negative : Bool
  lead : List Char
  digits : List Char

/-- A whole number in the base of a letter, with at least `least` digits. -/
def writeWhole (letter : Char) (alternate : Bool) (least : Nat) (n : Int) : Written :=
  let base := if letter = 'o' then 8 else if letter = 'x' ∨ letter = 'X' then 16 else 10
  let digits := Binary64.padZeros least (Nat.toDigits base n.natAbs)
  { negative := n < 0
    lead := if alternate && isHexOrOctal letter then ['0', letter] else []
    digits := if letter = 'X' then digits.map Char.toUpper else digits }

/-- A floating-point number in the form of a letter. -/
def writeReal (letter : Char) (alternate : Bool) (precision : Nat) (x : Binary64) : Written :=
  let upper (cs : List Char) : List Char := if letter.isUpper then cs.map Char.toUpper else cs
  match x with
  | .nan => ⟨false, [], upper ['n', 'a', 'n']⟩
  | .infinite negative => ⟨negative, [], upper ['i', 'n', 'f']⟩
  | .finite negative m e =>
    let (num, den) := Binary64.ratio m e
    let digits := match letter.toLower with
      | 'e' => Binary64.scientificDigits precision alternate num den
      | 'g' => Binary64.generalDigits precision alternate num den
      | _ => Binary64.fixedDigits precision alternate num den
    ⟨negative, [], upper digits⟩

/-- Code points in a field of some width. -/
def padText (left : Bool) (width : Nat) (codes : List Nat) : List Nat :=
  let spaces := List.replicate (width - codes.length) ' '.toNat
  if left then codes ++ spaces else spaces ++ codes

/-- A written number in a field of some width; zeros go between what leads and the digits. -/
def padNumber (flags : Flags) (width : Nat) (w : Written) : List Nat :=
  let sign : List Char :=
    if w.negative then ['-'] else if flags.plus then ['+'] else if flags.blank then [' '] else []
  let head := sign ++ w.lead
  if flags.zero && !flags.left then
    (head ++ Binary64.padZeros (width - head.length) w.digits).map Char.toNat
  else padText flags.left width ((head ++ w.digits).map Char.toNat)

end Padded
end FluentSql.Log
