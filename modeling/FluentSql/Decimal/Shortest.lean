import FluentSql.Decimal.Binary64

/-!
The text of a number: the fewest decimal digits that read back as the same number, and among those
the nearest. Below `10 ^ 16` and from `10 ^ -4` on, the text is positional.
-/

namespace FluentSql
namespace Binary64

/-- The decimal digits of a whole number. -/
def digitText (n : Nat) : String := String.ofList (Nat.toDigits 10 n)

/-- The exponent of ten at which the first digit of `num / den` stands right after the point. -/
def pointPlace (num den : Nat) : Int :=
  if den ≤ num then (Nat.toDigits 10 (num / den)).length
  else
    let q := (den - 1) / num
    1 - (if q = 0 then 0 else (Nat.toDigits 10 q).length : Nat)

/-- The point of the grid of `count` digits that is nearest to `num / den`, of those that read back.
-/
def candidate? (x : Binary64) (negative : Bool) (num den : Nat) (count : Nat) :
    Option (Nat × Int) :=
  let place := pointPlace num den - count
  let (n, d) := scaleBy 10 num den place
  let low := n / d
  let readsBack (digits : Nat) : Bool := ofDecimal negative digits place == x
  let nearest := roundQuotient n d
  let other := if nearest = low then low + 1 else low
  if readsBack nearest then some (nearest, place)
  else if readsBack other then some (other, place)
  else none

/-- Digits and exponent of ten of the shortest decimal that reads back. -/
def shortest (negative : Bool) (mantissa : Nat) (exponent : Int) : Nat × Int :=
  if mantissa = 0 then (0, 0)
  else
    let (num, den) := ratio mantissa exponent
    let x := Binary64.finite negative mantissa exponent
    match (List.range 17).findSome? fun k => candidate? x negative num den (k + 1) with
    | some found => found
    | none => (num / den, 0)

/-- Digits without trailing zeros, and the place of the point counted from the first digit. -/
def significand (digits : Nat) (exponent : Int) : List Char × Int :=
  let cs := Nat.toDigits 10 digits
  let kept := (cs.reverse.dropWhile (· == '0')).reverse
  (if kept.isEmpty then ['0'] else kept, cs.length + exponent)

/-- An exponent is written with its sign and at least two digits. -/
def exponentText (e : Int) : String :=
  let digits := digitText e.natAbs
  (if e < 0 then "e-" else "e+") ++ (if digits.length < 2 then "0" ++ digits else digits)

/-- Positional digits with at least one digit on either side of the point. -/
def positional (digits : List Char) (place : Int) : String :=
  if place ≤ 0 then
    "0." ++ String.ofList (List.replicate place.natAbs '0' ++ digits)
  else
    let n := place.toNat
    if digits.length ≤ n then
      String.ofList (digits ++ List.replicate (n - digits.length) '0') ++ ".0"
    else String.ofList (digits.take n) ++ "." ++ String.ofList (digits.drop n)

def toText : Binary64 → String
  | .nan => "nan"
  | .infinite negative => if negative then "-inf" else "inf"
  | .finite negative m e =>
    let sign := if negative then "-" else ""
    if m = 0 then sign ++ "0.0"
    else
      let (digits, exponent) := shortest negative m e
      let (kept, place) := significand digits exponent
      if -4 < place ∧ place ≤ 16 then sign ++ positional kept place
      else
        let head := String.ofList (kept.take 1)
        let tail := String.ofList (kept.drop 1)
        sign ++ head ++ (if tail.isEmpty then "" else "." ++ tail) ++ exponentText (place - 1)

/-- Splits characters at the first one that satisfies the test, which is dropped. -/
def splitAtFirst (test : Char → Bool) (cs : List Char) : List Char × Option (List Char) :=
  match cs.dropWhile (!test ·) with
  | [] => (cs, none)
  | _ :: rest => (cs.takeWhile (!test ·), some rest)

def digitsOf (cs : List Char) : Nat := cs.foldl (fun n c => 10 * n + (c.toNat - 48)) 0

/-- Reads the text of a number: a word for the special numbers, else digits with an optional point
and an optional exponent. -/
def ofText (s : String) : Binary64 :=
  let (negative, cs) := match s.toList with
    | '-' :: rest => (true, rest)
    | '+' :: rest => (false, rest)
    | rest => (false, rest)
  if cs.head? = some 'n' then .nan
  else if cs.head? = some 'i' then .infinite negative
  else
    let (body, exponent) := splitAtFirst (fun c => c == 'e' || c == 'E') cs
    let power : Int := match exponent with
      | some ('-' :: ds) => -(digitsOf ds : Int)
      | some ('+' :: ds) => digitsOf ds
      | some ds => digitsOf ds
      | none => 0
    let (whole, fraction) := splitAtFirst (· == '.') body
    let fraction := fraction.getD []
    ofDecimal negative (digitsOf (whole ++ fraction)) (power - fraction.length)

end Binary64
end FluentSql
