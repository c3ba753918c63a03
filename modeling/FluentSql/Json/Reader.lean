import FluentSql.Decimal.Shortest
import FluentSql.Text.Digits
import FluentSql.Text.Percent
import FluentSql.Value.Key

/-!
Values read from JSON text. A number with a point or an exponent is a floating-point number, every
other one a whole number; the words for infinity and `nan` are numbers too. A key that occurs twice
keeps its first place and takes its last value.
-/

namespace FluentSql.Json

def isBlank (c : Char) : Bool := c == ' ' || c == '\t' || c == '\n' || c == '\r'

def skipBlanks (cs : List Char) : List Char := cs.dropWhile isBlank

/-- The character that a letter after a backslash stands for. -/
def escaped? : Char → Option Char
  | '"' => some '"'
  | '\\' => some '\\'
  | '/' => some '/'
  | 'b' => some '\x08'
  | 'f' => some '\x0c'
  | 'n' => some '\n'
  | 'r' => some '\r'
  | 't' => some '\t'
  | _ => none

/-- The code unit of four hexadecimal digits. -/
def unit? (a b c d : Char) : Option Nat := do
  let a ← Text.hexDigitValue? a
  let b ← Text.hexDigitValue? b
  let c ← Text.hexDigitValue? c
  let d ← Text.hexDigitValue? d
  some (4096 * a + 256 * b + 16 * c + d)

/-- The code points and code units of a text up to its closing quote, and what follows. -/
def readUnits : List Char → Option (List Nat × List Char)
  | [] => none
  | '"' :: rest => some ([], rest)
  | '\\' :: 'u' :: a :: b :: c :: d :: rest => do
    let u ← unit? a b c d
    let (units, rest) ← readUnits rest
    some (u :: units, rest)
  | '\\' :: e :: rest => do
    let c ← escaped? e
    let (units, rest) ← readUnits rest
    some (c.toNat :: units, rest)
  | c :: rest => do
    if c.toNat < 32 ∨ c = '\\' then none
    let (units, rest) ← readUnits rest
    some (c.toNat :: units, rest)

def isHighUnit (n : Nat) : Bool := 0xd800 ≤ n && n < 0xdc00

def isLowUnit (n : Nat) : Bool := 0xdc00 ≤ n && n < 0xe000

/-- The character of a code point; half of a pair on its own is replaced. -/
def charOf (n : Nat) : Char :=
  if isHighUnit n || isLowUnit n then Text.replacement else Char.ofNat n

/-- Joins pairs of code units; `high` is the first half of a pair whose second half may follow. -/
def joinUnits (high : Option Nat) : List Nat → List Char
  | [] => high.toList.map charOf
  | n :: rest =>
    match high with
    | some h =>
      if isLowUnit n then
        Char.ofNat (0x10000 + 0x400 * (h - 0xd800) + (n - 0xdc00)) :: joinUnits none rest
      else if isHighUnit n then charOf h :: joinUnits (some n) rest
      else charOf h :: charOf n :: joinUnits none rest
    | none => if isHighUnit n then joinUnits (some n) rest else charOf n :: joinUnits none rest

/-- A text after its opening quote, and what follows. -/
def readText (cs : List Char) : Option (String × List Char) :=
  (readUnits cs).map fun (units, rest) => (String.ofList (joinUnits none units), rest)

/-- Digits at the start, and what follows. -/
def spanDigits (cs : List Char) : List Char × List Char :=
  (cs.takeWhile Char.isDigit, cs.dropWhile Char.isDigit)

/-- The digits of a whole number: a zero on its own, or digits that start with another one. -/
def readWhole : List Char → Option (List Char × List Char)
  | '0' :: rest => some (['0'], rest)
  | cs =>
    match spanDigits cs with
    | ([], _) => none
    | found => some found

/-- Digits after a point, if any. -/
def readFraction (cs : List Char) : Option (List Char) × List Char :=
  match cs with
  | '.' :: rest =>
    match spanDigits rest with
    | ([], _) => (none, cs)
    | (digits, rest) => (some digits, rest)
  | _ => (none, cs)

/-- The exponent, if any. -/
def readExponent (cs : List Char) : Option Int × List Char :=
  match cs with
  | e :: rest =>
    if e = 'e' ∨ e = 'E' then
      let (negative, digits) : Bool × List Char := match rest with
        | '-' :: more => (true, more)
        | '+' :: more => (false, more)
        | more => (false, more)
      match spanDigits digits with
      | ([], _) => (none, cs)
      | (digits, rest) =>
        let n := Binary64.digitsOf digits
        (some (if negative then -(n : Int) else n), rest)
    else (none, cs)
  | [] => (none, [])

/-- An unsigned number, and what follows. -/
def readNumber (negative : Bool) (cs : List Char) : Option (Value × List Char) :=
  match cs with
  | 'I' :: 'n' :: 'f' :: 'i' :: 'n' :: 'i' :: 't' :: 'y' :: rest =>
    some (.float (.infinite negative), rest)
  | _ => do
    let (whole, rest) ← readWhole cs
    let (fraction, rest) := readFraction rest
    let (exponent, rest) := readExponent rest
    match fraction, exponent with
    | none, none =>
      if Text.maxDigits < whole.length then none
      else
        let n := Binary64.digitsOf whole
        some (.int (if negative then -(n : Int) else n), rest)
    | fraction, exponent =>
      let fraction := fraction.getD []
      some (.float (.ofDecimal negative (Binary64.digitsOf (whole ++ fraction))
        (exponent.getD 0 - fraction.length)), rest)

/-- A word or a number, and what follows. -/
def readPlain (cs : List Char) : Option (Value × List Char) :=
  match cs with
  | 'n' :: 'u' :: 'l' :: 'l' :: rest => some (.none, rest)
  | 't' :: 'r' :: 'u' :: 'e' :: rest => some (.bool true, rest)
  | 'f' :: 'a' :: 'l' :: 's' :: 'e' :: rest => some (.bool false, rest)
  | 'N' :: 'a' :: 'N' :: rest => some (.float .nan, rest)
  | '-' :: rest => readNumber true rest
  | cs => readNumber false cs

mutual

/-- A value, and what follows; `fuel` bounds the characters read. -/
def readValue : (fuel : Nat) → List Char → Option (Value × List Char)
  | 0, _ => none
  | fuel + 1, cs =>
    match cs with
    | '"' :: rest => (readText rest).map fun (s, rest) => (.text s, rest)
    | '[' :: rest =>
      match skipBlanks rest with
      | ']' :: rest => some (.list [], rest)
      | rest => (readItems fuel rest).map fun (items, rest) => (.list items, rest)
    | '\x7b' :: rest =>
      match skipBlanks rest with
      | '\x7d' :: rest => some (.map [], rest)
      | rest =>
        (readMembers fuel rest).map fun (members, rest) => (.map (Entries.ofPairs members), rest)
    | cs => readPlain cs

/-- The items of a list that is not empty, and what follows its bracket. -/
def readItems : (fuel : Nat) → List Char → Option (List Value × List Char)
  | 0, _ => none
  | fuel + 1, cs =>
    match readValue fuel cs with
    | none => none
    | some (item, rest) =>
      match skipBlanks rest with
      | ']' :: rest => some ([item], rest)
      | ',' :: rest =>
        (readItems fuel (skipBlanks rest)).map fun (items, rest) => (item :: items, rest)
      | _ => none

/-- The entries of a map that is not empty, and what follows its brace. -/
def readMembers : (fuel : Nat) → List Char → Option (List (Value × Value) × List Char)
  | 0, _ => none
  | fuel + 1, cs =>
    match cs with
    | '"' :: rest =>
      match readText rest with
      | none => none
      | some (key, rest) =>
        match skipBlanks rest with
        | ':' :: rest =>
          match readValue fuel (skipBlanks rest) with
          | none => none
          | some (v, rest) =>
            match skipBlanks rest with
            | '\x7d' :: rest => some ([(.text key, v)], rest)
            | ',' :: rest =>
              (readMembers fuel (skipBlanks rest)).map fun (members, rest) =>
                ((.text key, v) :: members, rest)
            | _ => none
        | _ => none
    | _ => none

end

/-- The value that a text denotes, with blanks around it. -/
def read? (s : String) : Option Value :=
  match readValue (s.length + 1) (skipBlanks s.toList) with
  | some (v, rest) => if (skipBlanks rest).isEmpty then some v else none
  | none => none

end FluentSql.Json
