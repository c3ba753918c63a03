import FluentSql.Compile.Placeholder
import FluentSql.Dialect
import FluentSql.Value.Coerce

/-!
Compilers. A compiler holds a placeholder style, a dialect and two switches; the switches are kept
as they were given. It writes lists of pieces, collecting the parameters on the way.
-/

namespace FluentSql

structure Compiler where
  style : Style := .qmark
  dialect : String := "sqlite"
  quoteIdentifiers : Value := .bool false
  allowUnconditionalWrites : Value := .bool false
deriving BEq, Repr, Inhabited

namespace Compiler

/-- A report about a setting, raised because of an exception. -/
def invalidSetting (message key : String) (cause : Raised) : Error :=
  .failure ⟨.configInvalid, message, [("config_key", .text key)], some cause⟩

def checkStyle (given : Value) : Except Error Style :=
  match given with
  | .text s =>
    match Style.ofText? s with
    | some style => .ok style
    | none => unknown
  | _ => unknown
where
  unknown : Except Error Style :=
    if given.isWritable then
      .error (invalidSetting s!"Unknown placeholder style: {given.toText}" "placeholder_style"
        (.valueError s!"{given.display} is not a valid PlaceholderStyle"))
    else .error (.raised .tooManyDigits)

/-- The dialect's name in lower case without blanks around it; an absent one is the empty name. -/
def checkDialect (given : Value) : Except Error String :=
  if !given.truthy then .ok ""
  else match given with
    | .text s =>
      let name := Text.lower (Text.trim s)
      match Dialect.check name with
      | .ok () => .ok name
      | .error e => .error (if e.isValueError then unknown e else .raised e)
    | .bytes _ => .error (unknown (.valueError s!"Invalid dialect type for '{given.toText}'."))
    | v => .error (.raised (.noAttribute v "strip"))
where
  unknown (cause : Raised) : Error :=
    invalidSetting s!"Unknown SQL dialect: {given.toText}" "dialect" cause

/-- A compiler out of loosely typed settings. -/
def ofValues (style dialect quoteIdentifiers allowUnconditionalWrites : Value) :
    Except Error Compiler := do
  let style ← checkStyle style
  let dialect ← checkDialect dialect
  .ok ⟨style, dialect, quoteIdentifiers, allowUnconditionalWrites⟩

/-- The names of the settings of a compiler. -/
def settingNames : List String :=
  ["placeholder_style", "dialect", "quote_identifiers", "allow_unconditional_writes"]

/-- A compiler out of named settings, each of which has a default. Other names are refused. -/
def ofFields (data : List (String × Value)) : Except Error Compiler :=
  match (Fields.keys data).find? (!settingNames.contains ·) with
  | some other => .error (.raised (.typeError s!"a compiler has no setting '{other}'"))
  | none =>
    ofValues ((Fields.get? "placeholder_style" data).getD (.text Style.qmark.text))
      ((Fields.get? "dialect" data).getD (.text "sqlite"))
      ((Fields.get? "quote_identifiers" data).getD (.bool false))
      ((Fields.get? "allow_unconditional_writes" data).getD (.bool false))

def quotes (k : Compiler) : Bool := k.quoteIdentifiers.truthy

/-- A name as it is written: quoted or as it is. -/
def writeName (k : Compiler) (name : String) : String :=
  if k.quotes then Dialect.quote k.dialect name else name

/-- Writes one piece. -/
def writePiece (k : Compiler) (reserved : List String) (c : Collector) :
    Piece → Except Error (String × Collector)
  | .text s => .ok (s, c)
  | .name s => .ok (k.writeName s, c)
  | .bound value => .ok (c.bind k.style reserved value)
  | .fragment clause sql params => do .ok (sql, ← c.extend k.style clause params)
  | .halt e => .error e

/-- Writes pieces one after the other. -/
def writeFrom (k : Compiler) (reserved : List String) (c : Collector) :
    List Piece → Except Error (String × Collector)
  | [] => .ok ("", c)
  | piece :: rest => do
    let (head, c) ← k.writePiece reserved c piece
    let (tail, c) ← k.writeFrom reserved c rest
    .ok (head ++ tail, c)

/-- Writes pieces, with the given names reserved for fragments. -/
def write (k : Compiler) (reserved : List String) (pieces : List Piece) :
    Except Error (String × Value) := do
  let (sql, c) ← k.writeFrom reserved {} pieces
  .ok (sql, c.parameters k.style)

end Compiler
end FluentSql
