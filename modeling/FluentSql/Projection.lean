import FluentSql.Refusal
import FluentSql.Text.Blank
import FluentSql.Text.Case

/-!
Projections: the expressions that a SELECT fetches, given as one text with commas. A comma inside
parentheses or quotes does not separate. Each expression is screened for the marks of stacked
statements, comments and always-true conditions.
-/

namespace FluentSql.Projection

/-- One step of a pattern: given characters, or blanks of which there may have to be one. -/
inductive PatternStep where
  | exactly (text : List Char)
  | blanks
  | someBlanks
deriving DecidableEq, Repr

/-- The rest of the characters after a given beginning. -/
def dropStart? : List Char → List Char → Option (List Char)
  | [], cs => some cs
  | _ :: _, [] => none
  | p :: ps, c :: cs => if p = c then dropStart? ps cs else none

/-- Whether the steps match at the front of the characters. -/
def matchesAt : List PatternStep → List Char → Bool
  | [], _ => true
  | .exactly text :: steps, cs =>
    match dropStart? text cs with
    | some rest => matchesAt steps rest
    | none => false
  | .blanks :: steps, cs => matchesAt steps (cs.dropWhile Text.isBlank)
  | .someBlanks :: _, [] => false
  | .someBlanks :: steps, c :: cs =>
    Text.isBlank c && matchesAt steps (cs.dropWhile Text.isBlank)

/-- Whether the steps match anywhere in the characters. -/
def occursIn (steps : List PatternStep) : List Char → Bool
  | [] => matchesAt steps []
  | c :: cs => matchesAt steps (c :: cs) || occursIn steps cs

/-- A second statement that begins with the given keyword. -/
def stacked (keyword : String) : List PatternStep :=
  [.exactly [';'], .blanks, .exactly keyword.toList]

/-- A comparison of a text with itself after OR. -/
def alwaysTrue (text : List Char) : List PatternStep :=
  [.exactly ['O', 'R'], .someBlanks, .exactly text, .blanks, .exactly ['='], .blanks,
    .exactly text]

/-- The patterns that no expression may hold, in upper case. -/
def dangerousPatterns : List (List PatternStep) :=
  [stacked "DROP", stacked "DELETE", stacked "UPDATE", stacked "INSERT",
    [.exactly ['-', '-']], [.exactly ['/', '*']], [.exactly ['*', '/']],
    [.exactly "UNION".toList, .someBlanks, .exactly "SELECT".toList],
    alwaysTrue ['1'], alwaysTrue ['\'', '1', '\'']]

def isDangerous (text : String) : Bool :=
  let cs := (Text.upper text).toList
  dangerousPatterns.any (occursIn · cs)

/-- Refuses a text in which a dangerous pattern occurs. -/
def screen (role text : String) : Except Error String :=
  if isDangerous text then refuse (.dangerousText role text) else .ok text

/-- Screens a loosely typed text. -/
def screenValue (role : String) : Value → Except Error String
  | .text s => screen role s
  | .bytes _ => .error (.raised (.typeError "cannot use a string pattern on a bytes-like object"))
  | v => .error (.raised (.noAttribute v "upper"))

/-- Where a scan stands: the depth of parentheses, which may fall below zero, and the open quote. -/
structure Scan where
  depth : Int := 0
  quote : Option Char := none
deriving DecidableEq, Repr

namespace Scan

def step (s : Scan) (c : Char) : Scan :=
  match s.quote with
  | some quote => if c = quote then { s with quote := none } else s
  | none =>
    if c = '\'' || c = '"' || c = '\x60' then { s with quote := some c }
    else if c = '(' then { s with depth := s.depth + 1 }
    else if c = ')' then { s with depth := s.depth - 1 }
    else s

/-- A comma outside parentheses and quotes. -/
def separates (s : Scan) (c : Char) : Bool := s.quote.isNone && s.depth == 0 && c == ','

/-- Nothing is left open. -/
def closed (s : Scan) : Bool := s.quote.isNone && s.depth == 0

end Scan

/-- The pieces between separating commas, and where the scan ends. -/
def pieces (s : Scan) : List Char → List (List Char) × Scan
  | [] => ([[]], s)
  | c :: cs =>
    if s.separates c then
      let (rest, final) := pieces s cs
      ([] :: rest, final)
    else
      match pieces (s.step c) cs with
      | (piece :: rest, final) => ((c :: piece) :: rest, final)
      | ([], final) => ([[c]], final)

/-- The expressions of a projection, trimmed and screened. -/
def split : Value → Except Error (List String)
  | .text s =>
    let (found, final) := pieces {} s.toList
    let expressions := found.map fun piece => String.ofList (Text.trimChars piece)
    if !final.closed || expressions.any String.isEmpty then refuse (.malformedProjection s)
    else expressions.mapM (screen "projection")
  | v => refuse (.projectionNotText v.typeName)

end FluentSql.Projection
