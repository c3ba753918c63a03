/-!
Text in percent encoding: `%` and two hexadecimal digits stand for a byte, and the bytes of a run of
ASCII characters are read as UTF-8. A part that is no UTF-8 is replaced by one replacement
character.
-/

namespace FluentSql.Text

def hexDigitValue? (c : Char) : Option Nat :=
  if '0' ≤ c ∧ c ≤ '9' then some (c.toNat - 48)
  else if 'a' ≤ c ∧ c ≤ 'f' then some (c.toNat - 87)
  else if 'A' ≤ c ∧ c ≤ 'F' then some (c.toNat - 55)
  else none

/-- The bytes of ASCII characters; a percent sign without two digits stands for itself. -/
def percentBytes : List Char → List Nat
  | [] => []
  | '%' :: a :: b :: rest =>
    match hexDigitValue? a, hexDigitValue? b with
    | some x, some y => (16 * x + y) :: percentBytes rest
    | _, _ => 37 :: percentBytes (a :: b :: rest)
  | c :: rest => c.toNat :: percentBytes rest

def replacement : Char := '\ufffd'

/-- The first byte of a sequence: how many bytes follow, its payload, and the range of the second
byte. -/
def leadByte? (b : Nat) : Option (Nat × Nat × Nat × Nat) :=
  if 0xc2 ≤ b ∧ b ≤ 0xdf then some (1, b - 0xc0, 0x80, 0xbf)
  else if b = 0xe0 then some (2, 0, 0xa0, 0xbf)
  else if b = 0xed then some (2, 0xd, 0x80, 0x9f)
  else if 0xe1 ≤ b ∧ b ≤ 0xef then some (2, b - 0xe0, 0x80, 0xbf)
  else if b = 0xf0 then some (3, 0, 0x90, 0xbf)
  else if 0xf1 ≤ b ∧ b ≤ 0xf3 then some (3, b - 0xf0, 0x80, 0xbf)
  else if b = 0xf4 then some (3, 4, 0x80, 0x8f)
  else none

/-- A sequence that is being read: the bytes still to come, the payload so far, and the range of the
next byte. -/
structure Pending where
  left : Nat
  payload : Nat
  low : Nat
  high : Nat

/-- Reads bytes as UTF-8, with a sequence in progress or none. -/
def decodeUtf8 (pending : Option Pending) : List Nat → List Char
  | [] => if pending.isSome then [replacement] else []
  | b :: rest =>
    let fresh : List Char :=
      if b < 0x80 then Char.ofNat b :: decodeUtf8 none rest
      else match leadByte? b with
        | some (left, payload, low, high) => decodeUtf8 (some ⟨left, payload, low, high⟩) rest
        | none => replacement :: decodeUtf8 none rest
    match pending with
    | none => fresh
    | some p =>
      if p.low ≤ b ∧ b ≤ p.high then
        let payload := 64 * p.payload + (b - 0x80)
        if p.left = 1 then Char.ofNat payload :: decodeUtf8 none rest
        else decodeUtf8 (some ⟨p.left - 1, payload, 0x80, 0xbf⟩) rest
      else replacement :: fresh

def isAscii (c : Char) : Bool := c.toNat < 128

/-- The text that percent-encoded characters stand for, run by run; `run` holds the ASCII characters
read so far, the last one first. -/
def unquoteFrom (run : List Char) : List Char → List Char
  | [] => decodeUtf8 none (percentBytes run.reverse)
  | c :: rest =>
    if isAscii c then unquoteFrom (c :: run) rest
    else decodeUtf8 none (percentBytes run.reverse) ++ c :: unquoteFrom [] rest

def unquote (cs : List Char) : String := String.ofList (unquoteFrom [] cs)

end FluentSql.Text
