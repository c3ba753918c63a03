import FluentSql.Decimal.Shortest

/-!
Numbers with a given count of digits. Every form is rounded once from the exact value, a tie to the
even digit: with a count of places after the point, with a count of significant digits and an
exponent, or in whichever of the two suits the size of the number.
-/

namespace FluentSql
namespace Binary64

/-- A digit text with zeros in front of it, up to a length. -/
def padZeros (length : Nat) (digits : List Char) : List Char :=
  List.replicate (length - digits.length) '0' ++ digits

/-- Digits with the last `places` of them after the point; a bare point is kept on request. -/
def withPoint (places : Nat) (keepPoint : Bool) (n : Nat) : List Char :=
  let digits := padZeros (places + 1) (Nat.toDigits 10 n)
  let whole := digits.take (digits.length - places)
  let fraction := digits.drop (digits.length - places)
  if fraction.isEmpty then whole ++ (if keepPoint then ['.'] else []) else whole ++ '.' :: fraction

/-- `num / den` with a count of places. -/
def fixedDigits (places : Nat) (keepPoint : Bool) (num den : Nat) : List Char :=
  withPoint places keepPoint (roundQuotient (num * Nat.pow 10 places) den)

/-- The `count` leading digits of `num / den` and the exponent of ten of the first one. -/
def leading (count num den : Nat) : Nat × Int :=
  if num = 0 then (0, 0)
  else
    let place := pointPlace num den - count
    let (n, d) := scaleBy 10 num den place
    let digits := roundQuotient n d
    let (digits, place) :=
      if digits = Nat.pow 10 count then (Nat.pow 10 (count - 1), place + 1) else (digits, place)
    (digits, place + count - 1)

/-- `num / den` with one digit before the point, a count of places, and an exponent. -/
def scientificDigits (places : Nat) (keepPoint : Bool) (num den : Nat) : List Char :=
  let (digits, exponent) := leading (places + 1) num den
  withPoint places keepPoint digits ++ (exponentText exponent).toList

/-- Digits without zeros at the end of their fraction, and without a bare point. -/
def dropZeros (cs : List Char) : List Char :=
  if cs.contains '.' then
    let kept := (cs.reverse.dropWhile (· == '0')).reverse
    if kept.getLast? = some '.' then kept.dropLast else kept
  else cs

/-- `num / den` with a count of significant digits, positional unless the exponent is small or
large. Zeros at the end are dropped unless they are to be kept. -/
def generalDigits (count : Nat) (keepZeros : Bool) (num den : Nat) : List Char :=
  let count := max count 1
  let (digits, exponent) := leading count num den
  let trim (cs : List Char) : List Char := if keepZeros then cs else dropZeros cs
  if -4 ≤ exponent ∧ exponent < count then
    trim (fixedDigits (count - 1 - exponent).toNat keepZeros num den)
  else trim (withPoint (count - 1) keepZeros digits) ++ (exponentText exponent).toList

end Binary64
end FluentSql
