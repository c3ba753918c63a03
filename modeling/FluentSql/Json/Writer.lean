import FluentSql.Failure

/-!
Values written as JSON text. The text is printable ASCII: every other character is written as one or
two code units after a backslash. What JSON has no form for is written as a text, but a key has to
be a text, a number, a truth value or nothing. Text is written from code points, so that half of a
character of two code units can be written as well.
-/

namespace FluentSql.Json

/-- A code unit after a backslash. -/
def unitEscape (n : Nat) : List Char := '\\' :: 'u' :: Text.hexDigits 4 n

/-- The code units of a code point: two for one beyond the first 65536. -/
def unitsOf (n : Nat) : List Nat :=
  if n < 0x10000 then [n]
  else [0xd800 + (n - 0x10000) / 0x400, 0xdc00 + (n - 0x10000) % 0x400]

/-- A code point between quotes. -/
def writeCode (n : Nat) : List Char :=
  if n = '"'.toNat then ['\\', '"']
  else if n = '\\'.toNat then ['\\', '\\']
  else if n = '\n'.toNat then ['\\', 'n']
  else if n = '\r'.toNat then ['\\', 'r']
  else if n = '\t'.toNat then ['\\', 't']
  else if n = 8 then ['\\', 'b']
  else if n = 12 then ['\\', 'f']
  else if 32 ≤ n ∧ n ≤ 126 then [Char.ofNat n]
  else (unitsOf n).flatMap unitEscape

/-- Code points between their quotes. -/
def writeCodes (codes : List Nat) : List Char := '"' :: codes.flatMap writeCode ++ ['"']

/-- A string between its quotes. -/
def writeText (s : String) : List Char := writeCodes (codesOf s)

def boolWord (b : Bool) : String := if b then "true" else "false"

def nullWord : String := "null"

def floatWord : Binary64 → String
  | .nan => "NaN"
  | .infinite false => "Infinity"
  | .infinite true => "-Infinity"
  | x => x.toText

variable {τ : Type} [Textual τ]

/-- The code points of a key. -/
def keyCodes : Value τ → Except Raised (List Nat)
  | .text s => .ok (Textual.codes s)
  | .bool b => .ok (codesOf (boolWord b))
  | .int n => Raised.textCodes (.int n : Value τ)
  | .float x => .ok (codesOf (floatWord x))
  | .none => .ok (codesOf nullWord)
  | v => .error (.typeError s!"keys must be str, int, float, bool or None, not {v.typeName}")

/-- An entry of an object, from its key and its written value. -/
def writeEntry (key : Value τ) (value : Except Raised (List Char)) :
    Except Raised (List Char) := do
  let key ← keyCodes key
  .ok (writeCodes key ++ ':' :: ' ' :: (← value))

mutual

def write : Value τ → Except Raised (List Char)
  | .none => .ok nullWord.toList
  | .bool b => .ok (boolWord b).toList
  | .int n => do .ok (← Raised.textOf (.int n)).toList
  | .float x => .ok (floatWord x).toList
  | .text s => .ok (writeCodes (Textual.codes s))
  | .list items => do .ok ('[' :: (← writeItems items) ++ [']'])
  | .tuple items => do .ok ('[' :: (← writeItems items) ++ [']'])
  | .map entries => do .ok ('\x7b' :: (← writeEntries entries) ++ ['\x7d'])
  | .bytes bs => .ok (writeText (Value.bytes bs : Value τ).display)
  | .iterator items => .ok (writeText (Value.iterator items).display)
  | .missing => .ok (writeText (Value.missing : Value τ).display)
  | .callback calls => .ok (writeText (Value.callback calls).display)

/-- Items with a comma and a space between them. -/
def writeItems : List (Value τ) → Except Raised (List Char)
  | [] => .ok []
  | [item] => write item
  | item :: rest => do
    let item ← write item
    .ok (item ++ ',' :: ' ' :: (← writeItems rest))

/-- Entries with a comma and a space between them, a colon and a space between key and value. -/
def writeEntries : List (Value τ × Value τ) → Except Raised (List Char)
  | [] => .ok []
  | [(key, value)] => writeEntry key (write value)
  | (key, value) :: rest => do
    let entry ← writeEntry key (write value)
    .ok (entry ++ ',' :: ' ' :: (← writeEntries rest))

end

/-- An object out of keys and written values, one after the other. -/
def writeObject (entries : List (Value τ × Except Raised (List Char))) :
    Except Raised (List Char) := do
  let written ← entries.mapM fun (key, value) => writeEntry key value
  .ok ('\x7b' :: [',', ' '].intercalate written ++ ['\x7d'])

end FluentSql.Json
