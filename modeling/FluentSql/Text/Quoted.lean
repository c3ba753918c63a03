import FluentSql.Text.Codes
import FluentSql.Text.Printable

/-!
Quoted text, as messages show values. Single quotes stand around the text unless it holds a single
quote and no double quote; the quote in use and the backslash are escaped, and hidden characters and
code points that are no characters are written by their numbers.
-/

namespace FluentSql.Text

def hexDigit (n : Nat) : Char := if n < 10 then Char.ofNat (48 + n) else Char.ofNat (87 + n)

/-- The last `width` hexadecimal digits of a number. -/
def hexDigits : (width : Nat) → Nat → List Char
  | 0, _ => []
  | width + 1, n => hexDigits width (n / 16) ++ [hexDigit (n % 16)]

/-- The quote that stands around a text. -/
def quoteFor (hasSingle hasDouble : Bool) : Char := if hasSingle && !hasDouble then '"' else '\''

def quotedChar (quote c : Char) : List Char :=
  if c = quote || c = '\\' then ['\\', c]
  else if c = '\t' then ['\\', 't']
  else if c = '\n' then ['\\', 'n']
  else if c = '\r' then ['\\', 'r']
  else if isPrintable c then [c]
  else if c.toNat < 256 then '\\' :: 'x' :: hexDigits 2 c.toNat
  else if c.toNat < 65536 then '\\' :: 'u' :: hexDigits 4 c.toNat
  else '\\' :: 'U' :: hexDigits 8 c.toNat

def quotedCode (quote : Char) (n : Nat) : List Char :=
  if n.isValidChar then quotedChar quote (Char.ofNat n) else '\\' :: 'u' :: hexDigits 4 n

def quotedCodes (codes : List Nat) : String :=
  let quote := quoteFor (codes.contains '\''.toNat) (codes.contains '"'.toNat)
  String.ofList (quote :: codes.flatMap (quotedCode quote) ++ [quote])

def quoted (s : String) : String := quotedCodes (codesOf s)

def quotedByte (quote : Char) (b : UInt8) : List Char :=
  let c := Char.ofNat b.toNat
  if c = quote || c = '\\' then ['\\', c]
  else if c = '\t' then ['\\', 't']
  else if c = '\n' then ['\\', 'n']
  else if c = '\r' then ['\\', 'r']
  else if 32 ≤ b.toNat && b.toNat < 127 then [c]
  else '\\' :: 'x' :: hexDigits 2 b.toNat

def quotedBytes (bs : List UInt8) : String :=
  let quote := quoteFor (bs.contains 39) (bs.contains 34)
  String.ofList ('b' :: quote :: bs.flatMap (quotedByte quote) ++ [quote])

end FluentSql.Text
