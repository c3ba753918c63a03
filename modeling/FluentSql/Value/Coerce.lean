import FluentSql.Text.Digits
import FluentSql.Value.Key

/-!
Plain values read as data of a wanted form. Reading is lenient where nothing is lost: text may come
as UTF-8 bytes, a truth value as one of a few words or as zero or one, a whole number as text or as
a number without a fraction, and a list as any sequence that is not text.
-/

namespace FluentSql
namespace Value

def asText? : Value → Option String
  | .text s => some s
  | .bytes bs => String.fromUTF8? (ByteArray.mk bs.toArray)
  | _ => Option.none

def trueWords : List String := ["1", "t", "y", "on", "yes", "true"]

def falseWords : List String := ["0", "f", "n", "no", "off", "false"]

def boolOfText? (s : String) : Option Bool :=
  let word := String.ofList (s.toList.map Char.toLower)
  if trueWords.contains word then some true
  else if falseWords.contains word then some false
  else Option.none

def boolOfInt? (n : Int) : Option Bool :=
  if n = 1 then some true else if n = 0 then some false else Option.none

def asBool? : Value → Option Bool
  | .bool b => some b
  | .int n => boolOfInt? n
  | .float x => x.toInt?.bind boolOfInt?
  | v => v.asText?.bind boolOfText?

/-- What is left of a number that starts with a zero: further zeros go, with underscores between
them, up to another digit, a minus sign or a point. The last zero stays before a point and at the
end. -/
def dropZeros (last : Char) : List Char → Option (List Char)
  | [] => some [last]
  | c :: rest =>
    if c = '0' ∨ c = '_' then dropZeros c rest
    else if c.isDigit ∨ c = '-' then some (c :: rest)
    else if c = '.' then some (last :: c :: rest)
    else Option.none

/-- A number without the zeros it starts with. -/
def dropLeadingZeros : List Char → Option (List Char)
  | [] => Option.none
  | c :: rest =>
    if c = '0' then dropZeros c rest
    else if c.isDigit ∨ c = '-' then some (c :: rest)
    else Option.none

/-- A number without a point that zeros follow, of which there is at least one. -/
def dropZeroFraction (cs : List Char) : List Char :=
  match cs.dropWhile (· != '.') with
  | '.' :: zero :: rest =>
    if (zero :: rest).all (· == '0') then cs.takeWhile (· != '.') else cs
  | _ => cs

/-- Whether two underscores stand side by side. -/
def hasDoubleUnderscore : List Char → Bool
  | '_' :: '_' :: _ => true
  | _ :: rest => hasDoubleUnderscore rest
  | [] => false

/-- A number without its underscores, when they stand alone and inside it. -/
def dropUnderscores (cs : List Char) : List Char :=
  if cs.head? == some '_' || cs.getLast? == some '_' || hasDoubleUnderscore cs then cs
  else cs.filter (· != '_')

/-- Digits of which the first is no zero, unless it is the only one. -/
def plainNatural? (cs : List Char) : Option Nat :=
  match cs with
  | '0' :: _ :: _ => Option.none
  | cs =>
    if cs.all Char.isDigit && cs.length ≤ Text.maxDigits then Text.natural? cs else Option.none

/-- A whole number without anything that could be left out. -/
def plainInt? : List Char → Option Int
  | '-' :: rest => (plainNatural? rest).map fun n => -n
  | rest => (plainNatural? rest).map Int.ofNat

/-- A text without a plus sign at its start; a minus sign may not follow it. -/
def dropPlus : List Char → Option (List Char)
  | '+' :: '-' :: _ => Option.none
  | '+' :: rest => some rest
  | cs => some cs

/-- The whole number that a text gives. What could be left out is dropped from the outside to the
inside: blanks, a plus sign, zeros at the start, a fraction of zeros, underscores. -/
def intOfText? (s : String) : Option Int := do
  let cs ← dropLeadingZeros (← dropPlus (Text.trimNumber s.toList))
  plainInt? (dropUnderscores (dropZeroFraction cs))

/-- Numbers with a point are taken as whole numbers below this bound only. -/
def wholeBound : Nat := 9223372036854775808

def asInt? : Value → Option Int
  | .bool b => some (if b then 1 else 0)
  | .int n => some n
  | .float x => x.toInt?.filter fun n => n.natAbs < wholeBound
  | v => v.asText?.bind intOfText?

/-- A whole number that is not below a bound. -/
def asIntFrom? (least : Int) (v : Value) : Option Int := v.asInt?.filter (least ≤ ·)

def asNat? (v : Value) : Option Nat := (v.asIntFrom? 0).map Int.toNat

/-- The entries of a map whose keys can be read as text. -/
def asFields? : Value → Option (List (String × Value))
  | .map entries => do
    let fields ← entries.mapM fun (key, value) => key.asText?.map (·, value)
    some (Fields.ofPairs fields)
  | _ => Option.none

/-- The entries of a map whose keys are texts; other entries are passed over. -/
def namedEntries : List (Value × Value) → List (String × Value)
  | [] => []
  | (.text name, value) :: rest => (name, value) :: namedEntries rest
  | _ :: rest => namedEntries rest

end Value
end FluentSql
