import FluentSql.Text.Blank

/-!
Whole numbers in text. Reading accepts blanks around the number, a sign, single underscores
between digits, and the decimal digits of every script. Writing refuses numbers of more than
4300 digits.
-/

namespace FluentSql.Text

/-- The code points of the digits zero beyond ASCII; the other nine digits follow each of them. -/
def zeroDigits : List Nat := [
  1632, 1776, 1984, 2406, 2534, 2662, 2790, 2918, 3046, 3174, 3302, 3430, 3558, 3664, 3792, 3872,
  4160, 4240, 6112, 6160, 6470, 6608, 6784, 6800, 6992, 7088, 7232, 7248, 42528, 43216, 43264,
  43472, 43504, 43600, 44016, 65296, 66720, 68912, 69734, 69872, 69942, 70096, 70384, 70736,
  70864, 71248, 71360, 71472, 71904, 72016, 72784, 73040, 73120, 92768, 92864, 93008, 120782,
  120792, 120802, 120812, 120822, 123200, 123632, 125264, 130032]

def digitValue? (c : Char) : Option Nat :=
  let n := c.toNat
  if 48 ≤ n && n ≤ 57 then some (n - 48)
  else if n < 128 then none
  else (zeroDigits.find? fun z => z ≤ n && n ≤ z + 9).map (n - ·)

/-- Digits with single underscores between them, read onto the number so far. -/
def digitsOnto? (soFar : Nat) : List Char → Option Nat
  | [] => some soFar
  | '_' :: c :: rest => do digitsOnto? (10 * soFar + (← digitValue? c)) rest
  | c :: rest => do digitsOnto? (10 * soFar + (← digitValue? c)) rest

/-- An unsigned number: at least one digit, no underscore at either end. -/
def natural? : List Char → Option Nat
  | [] => none
  | c :: rest => do digitsOnto? (← digitValue? c) rest

/-- Blanks that may stand around a number; the information separators are not among them. -/
def isNumberBlank (c : Char) : Bool := isBlank c && !(28 ≤ c.toNat && c.toNat ≤ 31)

/-- The characters without the blanks that may stand around a number. -/
def trimNumber (cs : List Char) : List Char :=
  ((cs.dropWhile isNumberBlank).reverse.dropWhile isNumberBlank).reverse

def integer? (cs : List Char) : Option Int :=
  match trimNumber cs with
  | '-' :: rest => (natural? rest).map fun n => -n
  | '+' :: rest => (natural? rest).map Int.ofNat
  | rest => (natural? rest).map Int.ofNat

/-- The most digits a number may have when it is turned into text. -/
def maxDigits : Nat := 4300

def writable (n : Nat) : Bool := n < Nat.pow 10 maxDigits

/-- Characters without one sign at their start. -/
def dropSign : List Char → List Char
  | '-' :: rest => rest
  | '+' :: rest => rest
  | rest => rest

/-- The digits and underscores that a number begins with. -/
def leadingRun (cs : List Char) : List Char :=
  (dropSign (trimNumber cs)).takeWhile fun c => (digitValue? c).isSome || c == '_'

/-- The complaint about a text that is no number; a long text is cut. -/
def notANumber (shown : String) : String :=
  "invalid literal for int() with base 10: " ++ String.ofList (shown.toList.take 200)

/-- The number that a text gives, or a complaint about the text, shown in quotes. Digits are counted
once their underscores are known to be in place, and before what follows them is looked at. -/
def checkedInteger (cs : List Char) (shown : String) : Except String Int :=
  let run := leadingRun cs
  let count := (run.filter (· != '_')).length
  if (natural? run).isSome && maxDigits < count then
    .error (s!"Exceeds the limit ({maxDigits} digits) for integer string conversion: value has " ++
      s!"{count} digits; use sys.set_int_max_str_digits() to increase the limit")
  else match integer? cs with
    | some n => .ok n
    | none => .error (notANumber shown)

end FluentSql.Text
