import FluentSql.Log.Record

/-!
Spans around calls. A span has fixed attributes and attributes found when the call begins; absent
attributes are left out. A failure to find attributes is logged and never stops the call, and the
error that the call ends with is recorded on its span: its kind, and its text, which also describes
the status of the span.
-/

namespace FluentSql

structure Span where
  name : String
  kind : String := "CLIENT"
  attributes : List (String × Value) := []
  error : Option Error := none
deriving BEq, Repr

namespace Span

/-- A span is marked as failed when the call ended with an error. -/
def failed (s : Span) : Bool := s.error.isSome

/-- The kind of the exception that is recorded on a span. -/
def exception (s : Span) : Option String := s.error.map Error.kind

/-- The text of that exception, which is the description of the span's status as well. -/
def description (render : Rendering) (s : Span) : Option String := s.error.map (Error.text render)

/-- The attributes that are present. -/
def present (attributes : List (String × Value)) : List (String × Value) :=
  attributes.filter fun (_, v) => !v.isNone

/-- The name of a span: the given one, or the place of the call when none is given. -/
def nameFor (given : Option String) (place : String) : String :=
  match given with
  | some name => if name.isEmpty then place else name
  | none => place

end Span

namespace Trace

/-- The warning about attributes that could not be found. -/
def warning (complaint : String) : Log.Record where
  level := .warning
  logger := Log.traceLogger
  message := "trace attribute getter failed: " ++ complaint

/-- The text of an error as a warning shows it. -/
def complaint : Error → String := Error.text .plain

/-- What a call's attributes come to: the attributes, or an error that ends the call before it
began, and the records written on the way. -/
structure Found where
  attributes : Except Error (List (String × Value))
  records : List Log.Record := []

/-- The attributes that a value gives: those that are present in a map, none when it is empty. -/
def attributesOf (v : Value) : Except Error (List (String × Value)) :=
  if !v.truthy then .ok []
  else match v with
    | .map entries => .ok (Span.present (entries.map fun (key, v) => (key.toText, v)))
    | v => .error (.raised (.noAttribute v "items"))

/-- The attributes of a call out of the fixed ones and those found for it. -/
def attributes (fixed : Value) (found : Option (Except Error Value)) : Found :=
  match attributesOf fixed with
  | .error e => ⟨.error e, []⟩
  | .ok fixed =>
    match found with
    | none => ⟨.ok fixed, []⟩
    | some (.error e) => ⟨.ok fixed, e.records ++ [warning (complaint e)]⟩
    | some (.ok v) => ⟨(attributesOf v).map (Fields.insertAll fixed), []⟩

/-- The outcome of a traced call, and its span. A call that ended before it began records nothing.
-/
def around {α : Type} (name kind : String) (found : Found) (body : Except Error α) :
    Except Error α × Span :=
  match found.attributes with
  | .error e => (.error e, ⟨name, kind, [], none⟩)
  | .ok attributes =>
    match body with
    | .ok a => (.ok a, ⟨name, kind, attributes, none⟩)
    | .error e => (.error e, ⟨name, kind, attributes, some e⟩)

end Trace
end FluentSql
