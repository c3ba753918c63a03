import FluentSql.Identifier
import FluentSql.Text.Case

/-!
Tables with an optional alias: `name`, `name alias` or `name AS alias`, the parts separated by
blanks. The letters of a reference are matched without regard to case, which takes in the few
letters beyond ASCII whose counterparts are ASCII. The canonical form writes `AS`.
-/

namespace FluentSql

structure TableReference where
  name : String
  shortName : Option String := none
deriving DecidableEq, Repr

namespace TableReference

/-- The letters beyond ASCII that are an ASCII letter in another case: `İ`, `ı`, `ſ` and the kelvin
sign. -/
def isFoldedLetter (c : Char) : Bool :=
  c == '\u0130' || c == '\u0131' || c == '\u017f' || c == '\u212a'

def isPartStart (c : Char) : Bool := Identifier.isPartStart c || isFoldedLetter c

def isPartChar (c : Char) : Bool := Identifier.isPartChar c || isFoldedLetter c

def isPart : List Char → Bool
  | [] => false
  | c :: rest => isPartStart c && rest.all isPartChar

def isDotted (cs : List Char) : Bool := (Identifier.splitDots cs).all isPart

/-- The word between name and alias, in any case. -/
def isAsWord : List Char → Bool
  | [a, s] => (a == 'a' || a == 'A') && (s == 's' || s == 'S' || s == '\u017f')
  | _ => false

/-- Name and alias of the words of a reference. -/
def ofWords? : List (List Char) → Option (List Char × Option (List Char))
  | [name] => if isDotted name then some (name, none) else none
  | [name, other] => if isDotted name && isPart other then some (name, some other) else none
  | [name, between, other] =>
    if isDotted name && isAsWord between && isPart other then some (name, some other) else none
  | _ => none

/-- Whether an alias reads as the word between name and alias once it is in upper case. -/
def isReserved (word : String) : Bool := Text.upper word == "AS"

def split : Value → Except Error TableReference
  | .text s =>
    if (Text.trim s).isEmpty then refuse (.emptyName "table" (.text s))
    else match ofWords? (Text.wordChars s.toList) with
      | some (name, other) =>
        let other := other.map String.ofList
        if other.any isReserved then refuse (.malformedTable s)
        else do
          let name ← Identifier.check "table" (.text (String.ofList name))
          .ok ⟨name, other⟩
      | none => refuse (.malformedTable s)
  | v => refuse (.emptyName "table" v)

/-- The canonical form. -/
def toText (t : TableReference) : String :=
  match t.shortName with
  | some other => t.name ++ " AS " ++ other
  | none => t.name

/-- The canonical form of the reference that a value gives. -/
def check (v : Value) : Except Error String := do .ok (← split v).toText

end TableReference
end FluentSql
