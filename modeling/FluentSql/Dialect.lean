import FluentSql.Failure
import FluentSql.Identifier
import FluentSql.Text.Case
import FluentSql.Text.Digits

/-!
SQL dialects, known by name. A dialect decides which marks stand around a quoted name and how a
limit and an offset are written. A name may be followed by settings after a comma; they are checked
and do not change what is written, but the full name no longer counts as the plain one for limit and
offset.
-/

namespace FluentSql.Dialect

def names : List String :=
  ["", "athena", "bigquery", "clickhouse", "databricks", "doris", "dremio", "drill", "druid",
    "duckdb", "dune", "exasol", "fabric", "hive", "materialize", "mysql", "oracle", "postgres",
    "presto", "prql", "redshift", "risingwave", "singlestore", "snowflake", "solr", "spark",
    "spark2", "sqlite", "starrocks", "tableau", "teradata", "trino", "tsql"]

/-- The marks around a quoted name, and the characters in it that are not written as they are. -/
structure Quotes where
  opening : Char
  closing : Char
  escaped : List (Char × List Char)
deriving DecidableEq, Repr

def backtick : Char := '\x60'

/-- Marks of which the closing one is written twice inside a name. -/
def doubling (opening closing : Char) : Quotes :=
  ⟨opening, closing, [(closing, [closing, closing])]⟩

def doubleQuotes : Quotes := doubling '"' '"'

def backticks : Quotes := doubling backtick backtick

def brackets : Quotes := doubling '[' ']'

/-- Double quotes in a dialect in which a backslash is written twice too. -/
def escapingQuotes : Quotes := ⟨'"', '"', [('"', ['"', '"']), ('\\', ['\\', '\\'])]⟩

/-- The control characters that have a letter of their own after a backslash. -/
def controlLetters : List (Char × Char) :=
  [('\x07', 'a'), ('\x08', 'b'), ('\x0c', 'f'), ('\n', 'n'), ('\r', 'r'), ('\t', 't'),
    ('\x0b', 'v')]

/-- Backticks in a dialect that writes marks and control characters after a backslash. -/
def escapingBackticks : Quotes where
  opening := backtick
  closing := backtick
  escaped := [(backtick, ['\\', backtick]), ('\\', ['\\', '\\'])] ++
    controlLetters.map (fun (c, letter) => (c, ['\\', letter])) ++
    (List.range 32).map fun n => (Char.ofNat n, '\\' :: 'x' :: Text.hexDigits 2 n)

def backtickDialects : List String :=
  ["mysql", "doris", "starrocks", "singlestore", "hive", "spark", "spark2", "databricks", "drill",
    "prql", "solr"]

def bracketDialects : List String := ["tsql", "fabric", "tableau"]

/-- The characters before the first comma. -/
def baseName (dialect : String) : String :=
  Text.trim (String.ofList (dialect.toList.takeWhile (· != ',')))

def quotes (dialect : String) : Quotes :=
  let name := baseName dialect
  if backtickDialects.contains name then backticks
  else if bracketDialects.contains name then brackets
  else if name = "bigquery" then escapingBackticks
  else if name = "clickhouse" then escapingQuotes
  else doubleQuotes

/-- One part of a name between the marks. -/
def quotePart (q : Quotes) (part : List Char) : List Char :=
  q.opening :: part.flatMap (fun c => (q.escaped.lookup c).getD [c]) ++ [q.closing]

/-- A dotted name, quoted part by part; a star stays as it is. -/
def quote (dialect name : String) : String :=
  ".".intercalate ((Identifier.splitDots name.toList).map fun part =>
    if part = ['*'] then "*" else String.ofList (quotePart (quotes dialect) part))

/-- How a limit and an offset are written: by LIMIT and OFFSET, with a stand-in for no limit where
an offset may not stand alone, or by OFFSET and FETCH after an ordering. -/
inductive Paging where
  | limit (unbounded : Option String)
  | fetch
deriving DecidableEq, Repr

def paging (dialect : String) : Paging :=
  if dialect = "tsql" then .fetch
  else if dialect = "sqlite" then .limit (some "-1")
  else if dialect = "mysql" then .limit (some "18446744073709551615")
  else .limit none

/-- The pieces of a text between commas. -/
def splitOn (separator : Char) : List Char → List (List Char)
  | [] => [[]]
  | c :: rest =>
    if c = separator then [] :: splitOn separator rest
    else match splitOn separator rest with
      | piece :: pieces => (c :: piece) :: pieces
      | [] => [[c]]

/-- What is given for a setting: a text, a switch, or something that cannot be told apart. -/
inductive Setting where
  | text (s : String)
  | switch (on : Bool)
  | unread
deriving DecidableEq, Repr

namespace Setting

def ofText (s : String) : Setting :=
  let word := Text.lower s
  if word = "true" ∨ word = "1" then .switch true
  else if word = "false" ∨ word = "0" then .switch false
  else .text s

end Setting

/-- The settings after a dialect's name, a later one in place of an earlier one of the same name. A
setting without a value is switched on. -/
def settings (dialect : String) : List (String × Setting) :=
  let trimmed (cs : List Char) : String := String.ofList (Text.trimChars cs)
  Fields.ofPairs <| (splitOn ',' dialect.toList).tail.map fun pair =>
    match splitOn '=' pair with
    | [key, value] => (trimmed key, .ofText (trimmed value))
    | [key] => (trimmed key, .switch true)
    | key :: _ => (trimmed key, .unread)
    | [] => ("", .unread)

def unknownSetting : Raised := .valueError "Unknown setting"

/-- How many parts of a version are read. -/
def versionParts : Nat := 3

/-- A version is a list of numbers with points between them; parts beyond the last one read may be
anything. -/
def checkVersion : Option Setting → Except Raised Unit
  | none => .ok ()
  | some (.text version) =>
    let parts := (splitOn '.' version.toList).take versionParts
    if parts.all fun part => (Text.checkedInteger part "").toOption.isSome then .ok ()
    else .error unknownSetting
  | some _ => .error unknownSetting

def normalizations : List String :=
  ["LOWERCASE", "UPPERCASE", "CASE_SENSITIVE", "CASE_INSENSITIVE", "CASE_INSENSITIVE_UPPERCASE"]

/-- A normalization is named in any case. -/
def checkNormalization : Option Setting → Except Raised Unit
  | none | some .unread => .ok ()
  | some (.text strategy) =>
    if normalizations.contains (Text.upper strategy) then .ok () else .error unknownSetting
  | some (.switch on) => .error (.noAttribute (.bool on : Value) "upper")

/-- A dialect whose name is known, with settings that are known and have readable values. -/
def check (dialect : String) : Except Raised Unit := do
  if !names.contains (baseName dialect) then
    .error (.valueError s!"Unknown dialect '{baseName dialect}'.")
  else
    let given := settings dialect
    if (Fields.get? "self" given).isSome then
      .error (.typeError "multiple values for argument 'self'")
    else
      checkVersion (Fields.get? "version" given)
      checkNormalization (Fields.get? "normalization_strategy" given)
      if (Fields.keys given).all ["version", "normalization_strategy"].contains then .ok ()
      else .error unknownSetting

end FluentSql.Dialect
