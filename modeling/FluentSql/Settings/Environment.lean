import FluentSql.Failure
import FluentSql.Json.Reader
import FluentSql.Text.Case
import FluentSql.Value.Coerce

/-!
Environment variables as a source of settings. Names are compared in lower case. A variable gives a
setting its text; a setting that is a map or a group of settings is given as JSON text, and its
parts may be given by variables of their own, whose names continue after a double underscore.
-/

namespace FluentSql

/-- Variables in the order in which they were first set. -/
structure Environment where
  vars : List (String × String) := []
deriving DecidableEq, Repr

/-- How a setting is given. A map may hold anything; a group has named settings, some of them maps.
-/
inductive SettingShape where
  | plain
  | map
  | group (names : List String) (maps : List String)
deriving DecidableEq, Repr

namespace Environment

def ofPairs (pairs : List (String × String)) : Environment := ⟨Fields.ofPairs pairs⟩

def set (env : Environment) (name : String) (text : Option String) : Environment :=
  match text with
  | some text => ⟨Fields.insert env.vars name text⟩
  | none => ⟨env.vars.filter (·.1 != name)⟩

/-- Variables by names in lower case; of names that differ in case only, the later one counts. -/
def folded (env : Environment) : List (String × String) :=
  Fields.ofPairs (env.vars.map fun (name, text) => (Text.lower name, text))

/-- The complaint about a variable that is no JSON text. -/
def unreadable (name : String) : Error :=
  .raised ⟨"SettingsError", s!"error parsing value for field \"{name}\"", false⟩

/-- The parts of a name between double underscores; there is always at least one. -/
def splitName : List Char → List (List Char)
  | [] => [[]]
  | '_' :: '_' :: rest => [] :: splitName rest
  | c :: rest =>
    match splitName rest with
    | piece :: pieces => (c :: piece) :: pieces
    | [] => [[c]]

/-- Puts a value at a path of keys; a path that leads through something else than a map is dropped.
-/
def insertAt (fields : List (String × Value)) : List String → Value → List (String × Value)
  | [], _ => fields
  | [key], v => Fields.insert fields key v
  | key :: rest, v =>
    match Fields.get? key fields with
    | none => Fields.insert fields key (Fields.toValue (insertAt [] rest v))
    | some (.map entries) =>
      Fields.insert fields key (Fields.toValue (insertAt (Value.namedEntries entries) rest v))
    | some _ => fields

/-- The value of a part of a setting. Inside a map in a map the text may be JSON; inside a group the
text of a map has to be. -/
def partValue (shape : SettingShape) (path : List String) (text : String) : Except Error Value :=
  if text.isEmpty then .ok (.text text)
  else match shape, path with
    | .map, _ :: _ :: _ => .ok ((Json.read? text).getD (.text text))
    | .group _ maps, [name] =>
      if maps.contains name then
        match Json.read? text with
        | some v => .ok v
        | none => .error (unreadable name)
      else .ok (.text text)
    | _, _ => .ok (.text text)

/-- The characters after a text at the start of another one. -/
def dropStart? : List Char → List Char → Option (List Char)
  | [], cs => some cs
  | _ :: _, [] => none
  | s :: start, c :: cs => if s = c then dropStart? start cs else none

/-- The parts of a setting that variables of their own give. -/
def parts (shape : SettingShape) (name : String) :
    List (String × String) → List (String × Value) → Except Error (List (String × Value))
  | [], found => .ok found
  | (given, text) :: rest, found =>
    match dropStart? (name ++ "__").toList given.toList with
    | none => parts shape name rest found
    | some part => do
      let path := (splitName part).map String.ofList
      parts shape name rest (insertAt found path (← partValue shape path text))

mutual

/-- A newer value put over an older one; maps are joined. -/
def overlay : Value → Value → Value
  | .map base, .map entries => .map (overlayEntries base entries)
  | _, v => v

def overlayEntries (base : List (Value × Value)) : List (Value × Value) → List (Value × Value)
  | [] => base
  | (key, v) :: rest =>
    let merged := match Entries.get? key base with
      | some old => overlay old v
      | none => v
    overlayEntries (Entries.insert base key merged) rest

end

/-- Newer fields put over older ones. -/
def overlayFields (base fields : List (String × Value)) : List (String × Value) :=
  fields.foldl (fun base (name, v) =>
    Fields.insert base name (match Fields.get? name base with
      | some old => overlay old v
      | none => v)) base

/-- The name of a group's setting that is the same in lower case. -/
def canonicalName (names : List String) (name : String) : String :=
  (names.find? fun n => Text.lower n == Text.lower name).getD name

/-- Entries of a group under the names of its settings. -/
def canonical (shape : SettingShape) (fields : List (String × Value)) : List (String × Value) :=
  match shape with
  | .group names _ => Fields.ofPairs (fields.map fun (name, v) => (canonicalName names name, v))
  | _ => fields

/-- The value of a setting, if the environment gives one. -/
def setting? (vars : List (String × String)) (start name : String) (shape : SettingShape) :
    Except Error (Option Value) :=
  let fullName := start ++ name
  match shape, Fields.get? fullName vars with
  | .plain, text => .ok (text.map .text)
  | shape, none => do
    let found ← parts shape fullName vars []
    .ok (if found.isEmpty then none else some (Fields.toValue (canonical shape found)))
  | shape, some text =>
    match Json.read? text with
    | none => .error (unreadable name)
    | some .none => .ok none
    | some (.map entries) => do
      let found ← parts shape fullName vars []
      let joined := overlayFields (Value.namedEntries entries) found
      .ok (some (Fields.toValue (canonical shape joined)))
    | some v => .ok (some v)

/-- The settings that the environment gives, in the order of the list. -/
def settings (vars : List (String × String)) (start : String) :
    List (String × SettingShape) → Except Error (List (String × Value))
  | [] => .ok []
  | (name, shape) :: rest => do
    let found ← setting? vars start name shape
    let others ← settings vars start rest
    .ok (match found with
      | some v => (name, v) :: others
      | none => others)

end Environment
end FluentSql
