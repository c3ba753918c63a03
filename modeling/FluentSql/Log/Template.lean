import FluentSql.Failure
import FluentSql.Log.Padded

/-!
Message templates. A directive starts with a percent sign, may have a key in parentheses, flags, a
width and a precision, and ends with a letter that says how its argument is written; two percent
signs stand for one. Directives are carried out from left to right, and the first one that fails
decides the error. A template and its outcome are rows of code points; where a character is asked
for, a code point that is none counts as the null character, which no directive has a use for.
-/

namespace FluentSql.Log

/-- A number in a directive: written in it, or taken from the arguments. -/
inductive Amount where
  | fixed (n : Nat)
  | argument
deriving DecidableEq, Repr

namespace Directive

def incomplete : Raised := .valueError "incomplete format"

def maxWidth : Nat := 9223372036854775807

def maxPrecision : Nat := 2147483647

/-- No more characters than this many are put into one field. -/
def maxField : Nat := 10000000

/-- The most digits that can be asked for in a whole number. -/
def maxLeast : Nat := 2147483644

/-- A key up to the parenthesis that closes it; `depth` counts the open ones. -/
def readKey (depth : Nat) : List Nat → Option (List Nat × List Nat)
  | [] => none
  | n :: rest =>
    let c := Char.ofNat n
    if c = ')' ∧ depth = 0 then some ([], rest)
    else
      let depth := if c = '(' then depth + 1 else if c = ')' then depth - 1 else depth
      (readKey depth rest).map fun (key, rest) => (n :: key, rest)

/-- The flags with the one that a character sets. -/
def withFlag? (flags : Flags) : Char → Option Flags
  | '-' => some { flags with left := true }
  | '+' => some { flags with plus := true }
  | ' ' => some { flags with blank := true }
  | '#' => some { flags with alternate := true }
  | '0' => some { flags with zero := true }
  | _ => none

def readFlags (flags : Flags) : List Nat → Flags × List Nat
  | [] => (flags, [])
  | n :: rest =>
    match withFlag? flags (Char.ofNat n) with
    | some flags => readFlags flags rest
    | none => (flags, n :: rest)

/-- A number up to a limit or a star, if there is one. -/
def readAmount (what : String) (limit : Nat) (ns : List Nat) :
    Except Raised (Option Amount × List Nat) :=
  if ns.head? = some '*'.toNat then .ok (some .argument, ns.tail)
  else match (ns.map Char.ofNat).takeWhile Char.isDigit with
    | [] => .ok (none, ns)
    | digits =>
      let n := Binary64.digitsOf digits
      if limit < n then .error (.valueError s!"{what} too big")
      else .ok (some (.fixed n), ns.drop digits.length)

/-- The precision after a point; a bare point stands for zero. -/
def readPrecision (ns : List Nat) : Except Raised (Option Amount × List Nat) :=
  if ns.head? = some '.'.toNat then do
    let (amount, rest) ← readAmount "precision" maxPrecision ns.tail
    .ok (some (amount.getD (.fixed 0)), rest)
  else .ok (none, ns)

/-- The letters for sizes. -/
def sizes : List Nat := ['h', 'l', 'L'].map Char.toNat

/-- A size letter before the last letter means nothing. -/
def dropSize : List Nat → List Nat
  | [] => []
  | n :: rest => if sizes.contains n then rest else n :: rest

end Directive

/-- What is left of the arguments: items that are used one by one, or a value that is used once and
may be looked up in by key. -/
inductive Arguments (τ : Type) where
  | items (rest : List (Value τ))
  | single (v : Value τ) (used : Bool)

namespace Arguments

variable {τ : Type}

/-- The arguments that a value stands for. -/
def ofValue : Value τ → Arguments τ
  | .tuple vs => .items vs
  | v => .single v false

def notEnough : Raised := .typeError "not enough arguments for format string"

def next : Arguments τ → Except Raised (Value τ × Arguments τ)
  | .items (v :: rest) => .ok (v, .items rest)
  | .items [] => .error notEnough
  | .single v false => .ok (v, .single v true)
  | .single _ true => .error notEnough

def allUsed : Arguments τ → Bool
  | .items rest => rest.isEmpty
  | .single _ used => used

end Arguments

namespace Template

open Padded

variable {τ : Type}

/-- Whether keys can be looked up in a value. Such a value need not be used. -/
def isKeyed : Value τ → Bool
  | .map _ | .list _ | .bytes _ => true
  | _ => false

def notKeyed : Raised := .typeError "format requires a mapping"

/-- The value under a key of the mapping that the arguments are. The complaint about a missing key
shows whole characters only. -/
def lookUp [DecidableEq τ] [Textual τ] (mapping : Value τ) (key : List Nat) :
    Except Raised (Value τ) :=
  match mapping with
  | .map entries =>
    match Entries.get? (.text (Textual.ofCodes key)) entries with
    | some v => .ok v
    | none => .error ⟨"KeyError", String.ofList (key.map Char.ofNat), false⟩
  | .list _ => .error (.typeError "list indices must be integers or slices, not str")
  | .bytes _ => .error (.typeError "byte indices must be integers or slices, not str")
  | _ => .error notKeyed

/-- A displayed text in which all characters beyond ASCII are written by their code points. -/
def asciiText (s : String) : String :=
  String.ofList (s.toList.flatMap fun c =>
    if c.toNat < 128 then [c]
    else if c.toNat < 256 then '\\' :: 'x' :: Text.hexDigits 2 c.toNat
    else if c.toNat < 65536 then '\\' :: 'u' :: Text.hexDigits 4 c.toNat
    else '\\' :: 'U' :: Text.hexDigits 8 c.toNat)

/-- The whole number that an argument gives for a letter. -/
def wholeNumber (letter : Char) (v : Value τ) : Except Raised Int :=
  match v with
  | .bool b => .ok (if b then 1 else 0)
  | .int n => .ok n
  | .float x =>
    if isHexOrOctal letter then wrong "an integer is required"
    else match x, x.truncate? with
      | _, some n => .ok n
      | .nan, none => .error (.valueError "cannot convert float NaN to integer")
      | _, none => .error (.overflowError "cannot convert float infinity to integer")
  | _ =>
    wrong (if isHexOrOctal letter then "an integer is required" else "a real number is required")
where
  wrong (need : String) : Except Raised Int :=
    .error (.typeError s!"%{letter} format: {need}, not {v.typeName}")

/-- The floating-point number that an argument gives. -/
def realNumber : Value τ → Except Raised Binary64
  | .float x => .ok x
  | .bool b => .ok (.ofInt (if b then 1 else 0))
  | .int n =>
    match Binary64.ofInt n with
    | .infinite _ => .error (.overflowError "int too large to convert to float")
    | x => .ok x
  | v => .error (.typeError s!"must be real number, not {v.typeName}")

/-- The code point of a single character, given as such or by its number. -/
def oneCode [Textual τ] : Value τ → Except Raised Nat
  | .text s =>
    match Textual.codes s with
    | [n] => .ok n
    | _ => .error (.typeError "%c requires int or char")
  | .bool b => .ok (if b then 1 else 0)
  | .int n =>
    if 0 ≤ n ∧ n < 0x110000 then .ok n.toNat
    else .error (.overflowError "%c arg not in range(0x110000)")
  | _ => .error (.typeError "%c requires int or char")

/-- The complaint about a letter that no directive ends with, at its place in the template. -/
def unsupported (letter index : Nat) : Raised :=
  let shown := if 31 ≤ letter ∧ letter ≤ 126 then Char.ofNat letter else '?'
  .valueError (s!"unsupported format character '{shown}' " ++
    s!"(0x{String.ofList (Nat.toDigits 16 letter)}) at index {index}")

/-- The letters of whole numbers. -/
def wholeLetters : List Char := ['i', 'd', 'u', 'o', 'x', 'X']

/-- The letters that a directive may end with: those of texts, of a character, of whole numbers and
of floating-point numbers. -/
def letters : List Char :=
  ['s', 'r', 'a', 'c'] ++ wholeLetters ++ ['e', 'E', 'f', 'F', 'g', 'G']

/-- The code points of an argument for a letter, in its field. -/
def write [Textual τ] (flags : Flags) (width : Nat) (precision : Option Nat) (letter : Char)
    (v : Value τ) : Except Raised (List Nat) :=
  let fits (characters : Nat) : Except Raised Unit :=
    if Directive.maxField < characters then .error ⟨"MemoryError", "", false⟩ else .ok ()
  let text (shown : Except Raised (List Nat)) : Except Raised (List Nat) := do
    let codes ← shown
    fits width
    .ok (padText flags.left width (codes.take (precision.getD codes.length)))
  match letter with
  | 's' => text (Raised.textCodes v)
  | 'r' => text ((Raised.displayOf v).map codesOf)
  | 'a' => text ((Raised.displayOf v).map fun s => codesOf (asciiText s))
  | 'c' => do
    let code ← oneCode v
    fits width
    .ok (padText flags.left width [code])
  | letter =>
    if wholeLetters.contains letter then do
      let n ← wholeNumber letter v
      let least := precision.getD 1
      if Directive.maxLeast < least then .error (.overflowError "precision too large")
      else if isHexOrOctal letter || Text.writable n.natAbs then do
        fits (max width least)
        .ok (padNumber flags width (writeWhole letter flags.alternate least n))
      else .error .tooManyDigits
    else do
      let x ← realNumber v
      let places := precision.getD 6
      fits (max width places)
      .ok (padNumber flags width (writeReal letter flags.alternate places x))

/-- The number that an amount comes to, and what is left of the arguments. -/
def resolve (arguments : Arguments τ) (limit : Nat) :
    Option Amount → Except Raised (Option Int × Arguments τ)
  | none => .ok (none, arguments)
  | some (.fixed n) => .ok (some n, arguments)
  | some .argument => do
    let (v, rest) ← arguments.next
    match v with
    | .int n =>
      if -(limit : Int) - 1 ≤ n ∧ n ≤ limit then .ok (some n, rest)
      else .error (.overflowError "int too large for a field")
    | .bool b => .ok (some (if b then 1 else 0), rest)
    | _ => .error (.typeError "* wants int")

/-- The width that a number asks for, to whichever side. The least number has no opposite. -/
def fieldWidth (n : Int) : Nat := if Directive.maxWidth < n.natAbs then 0 else n.natAbs

section

variable [DecidableEq τ] [Textual τ]

/-- Looks up the key of a directive, if it has one: the arguments from then on, and what follows. -/
def takeKey (given : Value τ) (arguments : Arguments τ) (ns : List Nat) :
    Except Raised (Arguments τ × List Nat) :=
  if ns.head? = some '('.toNat then
    if !isKeyed given then .error notKeyed
    else match Directive.readKey 0 ns.tail with
      | none => .error (.valueError "incomplete format key")
      | some (key, rest) => do .ok (.single (← lookUp given key) false, rest)
  else .ok (arguments, ns)

/-- Carries out the directive after a percent sign: its outcome, what is left of the arguments, and
what follows in the template. `length` is the length of the whole template, which places are counted
in. -/
def directive (length : Nat) (given : Value τ) (arguments : Arguments τ) (ns : List Nat) :
    Except Raised (List Nat × Arguments τ × List Nat) := do
  let (arguments, ns) ← takeKey given arguments ns
  let (flags, ns) := Directive.readFlags {} ns
  let (width, ns) ← Directive.readAmount "width" Directive.maxWidth ns
  let (width, arguments) ← resolve arguments Directive.maxWidth width
  let (precision, ns) ← Directive.readPrecision ns
  let (precision, arguments) ← resolve arguments Directive.maxPrecision precision
  match Directive.dropSize ns with
  | [] => .error Directive.incomplete
  | n :: rest => do
    let (v, arguments) ← arguments.next
    let flags := if width.any (· < 0) then { flags with left := true } else flags
    let letter := Char.ofNat n
    if letters.contains letter then
      .ok (← write flags (fieldWidth (width.getD 0)) (precision.map Int.toNat) letter v,
        arguments, rest)
    else .error (unsupported n (length - rest.length - 1))

def percent : Nat := '%'.toNat

/-- The outcome of a template; `fuel` bounds its length. -/
def fillFrom (length : Nat) (given : Value τ) : (fuel : Nat) → Arguments τ → List Nat →
    Except Raised (List Nat × Arguments τ)
  | 0, arguments, _ => .ok ([], arguments)
  | _ + 1, arguments, [] => .ok ([], arguments)
  | fuel + 1, arguments, n :: rest =>
    if n ≠ percent then do
      let (more, arguments) ← fillFrom length given fuel arguments rest
      .ok (n :: more, arguments)
    else if rest.head? = some percent then do
      let (more, arguments) ← fillFrom length given fuel arguments rest.tail
      .ok (percent :: more, arguments)
    else do
      let (codes, arguments, rest) ← directive length given arguments rest
      let (more, arguments) ← fillFrom length given fuel arguments rest
      .ok (codes ++ more, arguments)

/-- The code points of a template with its arguments, all of which have to be used. -/
def fill (template : List Nat) (arguments : Value τ) : Except Raised (List Nat) := do
  let (codes, rest) ← fillFrom template.length arguments template.length
    (Arguments.ofValue arguments) template
  if isKeyed arguments || rest.allUsed then .ok codes
  else .error (.typeError "not all arguments converted during string formatting")

end

end Template
end FluentSql.Log
