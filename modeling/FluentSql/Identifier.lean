import FluentSql.Refusal
import FluentSql.Text.Blank

/-!
Names of tables and columns. A name is a sequence of ASCII parts joined by dots; every part but the
first may be a star. Blanks around a name are dropped, and no part is longer than 128 characters.
-/

namespace FluentSql.Identifier

def maxLength : Nat := 128

def isPartStart (c : Char) : Bool := c.isAlpha || c == '_'

def isPartChar (c : Char) : Bool := c.isAlphanum || c == '_' || c == '$'

def isPart : List Char → Bool
  | [] => false
  | c :: rest => isPartStart c && rest.all isPartChar

/-- The pieces between dots; there is always at least one. -/
def splitDots : List Char → List (List Char)
  | [] => [[]]
  | c :: rest =>
    if c = '.' then [] :: splitDots rest
    else match splitDots rest with
      | piece :: pieces => (c :: piece) :: pieces
      | [] => [[c]]

def parts (s : String) : List String := (splitDots s.toList).map String.ofList

def isDotted (cs : List Char) : Bool :=
  match splitDots cs with
  | first :: rest => isPart first && rest.all fun piece => isPart piece || piece == ['*']
  | [] => false

/-- A name that may be followed by one line end. -/
def isDottedLine (s : String) : Bool :=
  let cs := s.toList
  isDotted cs || (cs.getLast? == some '\n' && isDotted cs.dropLast)

/-- The name that a value gives in a role, without surrounding blanks. -/
def check (role : String) : Value → Except Error String
  | .text s =>
    let name := Text.trim s
    if name.isEmpty then refuse (.emptyName role (.text s))
    else if !isDotted name.toList then refuse (.malformedName role name)
    else if (splitDots name.toList).any fun piece => maxLength < piece.length then
      refuse (.longName role name)
    else .ok name
  | v => refuse (.emptyName role v)

end FluentSql.Identifier
