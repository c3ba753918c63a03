import FluentSql.Failure

/-!
The outcome of checking plain data. A check gives a value, or reports the fields that do not have
the required form, or stops at a failure. Checks of several fields are run in order: a failure stops
them, and reports are collected.
-/

namespace FluentSql

inductive Checked (α : Type) where
  | ok (a : α)
  | invalid (fields : List String)
  | stop (e : Error)

namespace Checked

variable {α β : Type}

def map (f : α → β) : Checked α → Checked β
  | .ok a => .ok (f a)
  | .invalid fields => .invalid fields
  | .stop e => .stop e

/-- Runs a second check after the first one, also when the first one reports fields. -/
def app (f : Checked (α → β)) (c : Checked α) : Checked β :=
  match f with
  | .stop e => .stop e
  | .ok g => c.map g
  | .invalid fields =>
    match c with
    | .stop e => .stop e
    | .ok _ => .invalid fields
    | .invalid more => .invalid (fields ++ more)

/-- Goes on with the checked value only. -/
def andThen (c : Checked α) (f : α → Checked β) : Checked β :=
  match c with
  | .ok a => f a
  | .invalid fields => .invalid fields
  | .stop e => .stop e

/-- A report about anything inside a field is a report about the field. -/
def inField (name : String) : Checked α → Checked α
  | .ok a => .ok a
  | .invalid _ => .invalid [name]
  | .stop e => .stop e

/-- The check stops at an error, whichever it is. -/
def ofExcept : Except Error α → Checked α
  | .ok a => .ok a
  | .error (.invalid fields) => .invalid fields
  | .error e => .stop e

/-- A value that cannot be read is reported, and the field's name is put to it later. -/
def ofOption : Option α → Checked α
  | some a => .ok a
  | none => .invalid [""]

/-- Checks all items, in order. -/
def all (f : β → Checked α) : List β → Checked (List α)
  | [] => .ok []
  | b :: rest => app ((f b).map List.cons) (all f rest)

/-- Without repetitions and in the order of code points. -/
def distinctFields (fields : List String) : List String :=
  (fields.foldl (fun kept f => if kept.contains f then kept else f :: kept) []).mergeSort (· ≤ ·)

def toExcept : Checked α → Except Error α
  | .ok a => .ok a
  | .invalid fields => .error (.invalid (distinctFields fields))
  | .stop e => .error e

instance : Functor Checked where
  map := map

instance : Seq Checked where
  seq f c := app f (c ())

instance : Pure Checked where
  pure := .ok

end Checked

/-- Checks the value of a named field, or gives the value that stands for an absent field. -/
def checkField {α : Type} (data : List (String × Value)) (name : String) (absent : Checked α)
    (check : Value → Checked α) : Checked α :=
  match Fields.get? name data with
  | some v => (check v).inField name
  | none => absent.inField name

end FluentSql
