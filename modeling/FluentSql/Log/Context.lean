import FluentSql.Log.Entry
import FluentSql.Value.Merge

/-!
The context of log entries: fixed fields, set as a whole, and the request in progress. Every entry
that passes gets the fixed fields, the request, the user, and the name and version of this library.
-/

namespace FluentSql.Log

structure Context (τ : Type := String) where
  fixed : List (Value τ × Value τ) := []
  request : Value τ := .none
  user : Value τ := .none
deriving BEq, Repr

namespace Context

variable {τ : Type} [DecidableEq τ] [Textual τ]

/-- Replaces the fixed fields; those set before an error arises stay. -/
def setFixed (c : Context τ) (environment extra : Value τ) : Context τ × Option Raised :=
  let named : List (Value τ × Value τ) :=
    if environment.isNone then [] else [(.ofString "environment", environment)]
  let (fixed, refusal) := if extra.truthy then Entries.merge named extra else (named, none)
  ({ c with fixed := fixed }, refusal)

/-- What is not given stays as it was. -/
def setRequest (c : Context τ) (request user : Value τ) : Context τ :=
  { c with
    request := if request.isNone then c.request else request
    user := if user.isNone then c.user else user }

def clearRequest (c : Context τ) : Context τ := { c with request := .none, user := .none }

def setFixedFields (e : Entry τ) : List (Value τ × Value τ) → Except Raised (Entry τ)
  | [] => .ok e
  | (.text name, v) :: rest => do setFixedFields (← e.set name v) rest
  | (key, _) :: _ =>
    .error (.typeError s!"attribute name must be string, not '{key.typeName}'")

/-- The attributes that follow the fixed fields. -/
def requestFields (c : Context τ) (version : String) : List (τ × Value τ) :=
  [(Textual.ofString "request_id", c.request), (Textual.ofString "user_id", c.user),
    (Textual.ofString "sdk_name", .ofString rootLogger),
    (Textual.ofString "sdk_version", .ofString version)]

/-- The entry with the context attached. -/
def attach (c : Context τ) (version : String) (e : Entry τ) : Except Raised (Entry τ) := do
  .ok ((← setFixedFields e c.fixed).putAll (c.requestFields version))

/-- A change of the context, as callers ask for it. -/
inductive Change (τ : Type := String) where
  | setFixed (environment extra : Value τ)
  | setRequest (request user : Value τ)
  | clearRequest

namespace Change

/-- A change of some name with named arguments, unless one of them is unknown. -/
def ofFields? (name : String) (args : List (String × Value τ)) :
    Option (Except Raised (Change τ)) :=
  let arg (name : String) : Value τ := (Fields.get? name args).getD .none
  match name with
  | "set_logging_context" =>
    some (taking ["environment", "extra"] (.setFixed (arg "environment") (arg "extra")))
  | "set_request_context" =>
    some (taking ["request_id", "user_id"] (.setRequest (arg "request_id") (arg "user_id")))
  | "clear_request_context" => some (taking [] .clearRequest)
  | _ => none
where
  taking (known : List String) (change : Change τ) : Except Raised (Change τ) :=
    match (Fields.keys args).find? (!known.contains ·) with
    | none => .ok change
    | some other =>
      .error (.typeError s!"{name}() got an unexpected keyword argument '{other}'")

end Change

def apply (c : Context τ) : Change τ → Context τ × Option Raised
  | .setFixed environment extra => c.setFixed environment extra
  | .setRequest request user => (c.setRequest request user, none)
  | .clearRequest => (c.clearRequest, none)

end Context
end FluentSql.Log
