import FluentSql.Checked
import FluentSql.Value.Coerce

/-!
Compiled statements: a text and its parameters. Parameters are handed to a database as a tuple,
which is never taken for several rows of parameters, or as a map whose keys lose one leading colon.
-/

namespace FluentSql

/-- Compiled text with its parameters; operation and table are kept for logs and traces. -/
structure Compiled where
  sql : String
  parameters : Value := .none
  operation : Option String := none
  table : Option String := none
deriving BEq, Repr, Inhabited

namespace Compiled

/-- A compiled statement out of named values. -/
def ofFields (data : List (String × Value)) : Except Error Compiled :=
  let text? : Value → Checked (Option String)
    | .none => .ok none
    | v => .ofOption (v.asText?.map some)
  Checked.toExcept <|
    ((((checkField data "sql" (.invalid [""]) fun v => .ofOption v.asText?).map Compiled.mk).app
      (checkField data "parameters" (.ok .none) .ok)).app
      (checkField data "operation" (.ok none) text?)).app
      (checkField data "table" (.ok none) text?)

/-- The complaint about a value whose items cannot be counted. -/
def uncountable (v : Value) : Raised := .typeError s!"object of type '{v.typeName}' has no len()"

/-- How many parameters a value holds. -/
def count (parameters : Value) : Except Raised Nat :=
  if !parameters.truthy then .ok 0
  else match parameters with
    | .list items => .ok items.length
    | .tuple items => .ok items.length
    | .map entries => .ok entries.length
    | .text s => .ok s.length
    | .bytes bs => .ok bs.length
    | v => .error (uncountable v)

def paramCount (c : Compiled) : Except Raised Nat := count c.parameters

/-- A key without one leading colon. -/
def bindKey : Value → Value
  | .text s =>
    match s.toList with
    | ':' :: rest => .text (String.ofList rest)
    | _ => .text s
  | v => v

/-- Parameters as they are handed to a database; nothing when there are none. -/
def bindParameters (parameters : Value) : Except Error Value :=
  if !parameters.truthy then .ok .none
  else match parameters with
    | .map entries => .ok (.map (Entries.ofPairs (entries.map fun (key, v) => (bindKey key, v))))
    | .list items => .ok (.tuple items)
    | .tuple items => .ok (.tuple items)
    | .iterator items => .ok (.tuple items)
    | .text s => .ok (.tuple (s.toList.map fun c => .text (String.singleton c)))
    | .bytes bs => .ok (.tuple (bs.map fun b => .int b.toNat))
    | v => .error (.raised (.typeError s!"'{v.typeName}' object is not iterable"))

end Compiled
end FluentSql
