import FluentSql.Log.Context
import FluentSql.Settings.Groups
import FluentSql.Text.Case

/-!
The console that log entries are written to. It takes the entries of this library's loggers from a
level on and writes each on a line of its own; an entry whose line cannot be written is dropped.
-/

namespace FluentSql.Log

variable {τ : Type} [Textual τ]

/-- The loggers above a name are found by cutting the name at its points from the right. A point
next to the one just cut at is passed over. -/
def liesBelow (root reversed : List Nat) : Bool :=
  match _h : reversed.dropWhile (· != '.'.toNat) with
  | [] => false
  | _ :: rest => rest.reverse == root || liesBelow root (rest.drop 1)
termination_by reversed.length
decreasing_by
  have h₁ := (List.dropWhile_suffix (l := reversed) (· != '.'.toNat)).length_le
  simp only [_h, List.length_cons] at h₁
  simp only [List.length_drop]
  omega

/-- Whether a logger is this library's root logger or lies below it. -/
def isOwn (logger : τ) : Bool :=
  let codes := Textual.codes logger
  codes == codesOf rootLogger || liesBelow (codesOf rootLogger) codes.reverse

/-- An entry as a caller hands it to a logger. -/
structure Submission (τ : Type := String) where
  logger : τ
  level : Level
  message : Value τ
  extra : List (τ × Value τ) := []

namespace Submission

/-- The entry that is made, unless a further attribute has the name of a standard one. -/
def entry [DecidableEq τ] (s : Submission τ) : Except Raised (Entry τ) :=
  match (Fields.keys s.extra).findSome? Entry.standardName? with
  | some name => .error ⟨"KeyError", s!"Attempt to overwrite '{name}' in LogRecord", false⟩
  | none => .ok ((Entry.make (.text s.logger) s.level.text s.message).putAll s.extra)

end Submission

/-- A console takes entries from its level on. -/
structure Console where
  level : Level
deriving DecidableEq, Repr

namespace Console

def refused : Raised := .valueError "Unable to configure handler 'console'"

/-- A console from the name of its level, in any case. -/
def ofLevelName (name : Value) : Except Raised Console :=
  match name with
  | .text s =>
    match Level.ofText? (Text.upper s) with
    | some level => .ok ⟨level⟩
    | none => .error refused
  | .bytes _ => .error refused
  | v => .error (.noAttribute v "upper")

/-- A console from optional arguments; without a level the shared settings have one. -/
def setup (env : Environment) (args : List Value) : Except Error Console :=
  match args with
  | _ :: _ :: _ =>
    .error (.raised (.typeError "setup_logging() takes from 0 to 1 positional arguments"))
  | args =>
    let given := args.head?.getD .none
    let name : Except Error Value :=
      if given.isNone then (Settings.ofSources env []).map fun s => .text s.logLevel else .ok given
    name.bind fun name => (ofLevelName name).mapError .raised

/-- The level of loggers that have none of their own. -/
def plainLevel : Level := .warning

/-- The least level that a logger takes entries of. -/
def threshold (c : Console) (logger : τ) : Level :=
  if isOwn logger && c.level != .notset then c.level else plainLevel

/-- The line that a submission leaves, if any. -/
def write [DecidableEq τ] (c : Console) (context : Context τ) (version stamp : String)
    (s : Submission τ) : Except Raised (Option String) :=
  if !(c.threshold s.logger).passes s.level then .ok none
  else do
    let entry ← s.entry
    .ok (if isOwn s.logger && c.level.passes s.level then
      ((context.attach version entry).bind fun e => e.lineAt stamp none).toOption else none)

/-- The lines that submissions leave, one after the other. -/
def lines [DecidableEq τ] (c : Console) (context : Context τ) (version stamp : String) :
    List (Submission τ) → Except Raised (List String)
  | [] => .ok []
  | s :: rest => do
    let line ← c.write context version stamp s
    .ok (line.toList ++ (← lines c context version stamp rest))

end Console
end FluentSql.Log
