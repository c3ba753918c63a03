/-!
Binary floating-point numbers of 53 bits, as exact data: a sign, a mantissa and an exponent of two.
Rounding goes to the nearest number, a tie to the even mantissa. All arithmetic is on natural
numbers, so what a number denotes is never approximated.
-/

namespace FluentSql

/-- A finite number is `± mantissa * 2 ^ exponent`; its mantissa has 53 bits unless the exponent is
the smallest one, and both zeros have mantissa zero. -/
inductive Binary64 where
  | nan
  | infinite (negative : Bool)
  | finite (negative : Bool) (mantissa : Nat) (exponent : Int)
deriving DecidableEq, Repr, Inhabited

namespace Binary64

/-- The least mantissa of 53 bits. -/
def leastFull : Nat := 4503599627370496

def minExponent : Int := -1074

def maxExponent : Int := 971

/-- The quotient rounded to the nearest whole number, a tie to the even one. -/
def roundQuotient (num den : Nat) : Nat :=
  let q := num / den
  let r := num % den
  if 2 * r < den then q
  else if den < 2 * r then q + 1
  else q + q % 2

/-- The two terms of `num / (den * base ^ e)`, both whole. -/
def scaleBy (base num den : Nat) (e : Int) : Nat × Nat :=
  if e < 0 then (num * Nat.pow base e.natAbs, den) else (num, den * Nat.pow base e.natAbs)

/-- The number nearest to `num / den`. -/
def ofRatio (negative : Bool) (num den : Nat) : Binary64 :=
  if num = 0 then .finite negative 0 minExponent
  else
    let guess : Int := max minExponent ((num.log2 : Int) - den.log2 - 52)
    let (n, d) := scaleBy 2 num den guess
    let e := if n / d < leastFull ∧ minExponent < guess then guess - 1 else guess
    let (n, d) := scaleBy 2 num den e
    let m := roundQuotient n d
    let (m, e) := if m = 2 * leastFull then (leastFull, e + 1) else (m, e)
    if maxExponent < e then .infinite negative else .finite negative m e

/-- The number nearest to `digits * 10 ^ exponent`. One that is far out of range is told by the
sizes of its parts. -/
def ofDecimal (negative : Bool) (digits : Nat) (exponent : Int) : Binary64 :=
  if digits = 0 then ofRatio negative 0 1
  else if 400 ≤ exponent then .infinite negative
  else if 0 ≤ exponent then ofRatio negative (digits * Nat.pow 10 exponent.natAbs) 1
  else if digits.log2 + 1101 ≤ 3 * exponent.natAbs then ofRatio negative 0 1
  else ofRatio negative digits (Nat.pow 10 exponent.natAbs)

def ofInt (n : Int) : Binary64 := ofRatio (n < 0) n.natAbs 1

/-- The magnitude of a finite number as a ratio of whole numbers. -/
def ratio (mantissa : Nat) (exponent : Int) : Nat × Nat :=
  if exponent < 0 then (mantissa, Nat.pow 2 exponent.natAbs)
  else (mantissa * Nat.pow 2 exponent.natAbs, 1)

/-- The whole number that a finite number is, if it is one. -/
def toInt? : Binary64 → Option Int
  | .finite negative m e =>
    let (num, den) := ratio m e
    if num % den = 0 then some (if negative then -(num / den : Nat) else (num / den : Nat))
    else none
  | _ => none

/-- A finite number without its fraction. -/
def truncate? : Binary64 → Option Int
  | .finite negative m e =>
    let (num, den) := ratio m e
    some (if negative then -(num / den : Nat) else (num / den : Nat))
  | _ => none

def isZero : Binary64 → Bool
  | .finite _ m _ => m == 0
  | _ => false

/-- Numerical equality: both zeros are equal, and no number equals `nan`. -/
def equal : Binary64 → Binary64 → Bool
  | .infinite a, .infinite b => a == b
  | .finite a m e, .finite b n f => (m == 0 && n == 0) || (a == b && m == n && e == f)
  | _, _ => false

end Binary64
end FluentSql
