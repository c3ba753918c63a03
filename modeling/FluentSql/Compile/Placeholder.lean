import FluentSql.Compile.Piece

/-!
Placeholders and the parameters they stand for. Positional styles collect a list. Named styles
collect a map and give each bound value the name `p` with the next number that no fragment claims
and no collected parameter has; the search ends because each taken name rules out one number.
-/

namespace FluentSql

/-- Parameters collected so far, and the last number that was tried for a name. -/
structure Collector where
  counter : Nat := 0
  positional : List Value := []
  named : List (String × Value) := []

namespace Collector

def numberedName (n : Nat) : String := "p" ++ toString n

/-- The first number from `n` on whose name is free, given that at most `fuel` names are taken. -/
def firstFree (taken : List String) : (fuel : Nat) → (n : Nat) → Nat
  | 0, n => n
  | fuel + 1, n => if taken.contains (numberedName n) then firstFree taken fuel (n + 1) else n

/-- The next number for a generated name. -/
def nextNumber (reserved : List String) (c : Collector) : Nat :=
  let taken := reserved ++ Fields.keys c.named
  firstFree taken taken.length (c.counter + 1)

/-- Binds a value and gives its placeholder. -/
def bind (style : Style) (reserved : List String) (c : Collector) (value : Value) :
    String × Collector :=
  match style with
  | .qmark => ("?", { c with positional := c.positional ++ [value] })
  | .format => ("%s", { c with positional := c.positional ++ [value] })
  | .named =>
    let n := c.nextNumber reserved
    (":" ++ numberedName n, { c with counter := n, named := c.named ++ [(numberedName n, value)] })
  | .pyformat =>
    let n := c.nextNumber reserved
    ("%(" ++ numberedName n ++ ")s",
      { c with counter := n, named := c.named ++ [(numberedName n, value)] })

/-- A key without one leading colon; a key of colons alone is refused. -/
def paramName (clause : FragmentClause) (key : String) : Except Error String :=
  match key.toList with
  | ':' :: rest =>
    if rest.all (· == ':') then refuse (.emptyParamName clause.text key)
    else .ok (String.ofList rest)
  | [] => refuse (.emptyParamName clause.text key)
  | _ => .ok key

/-- Adds the entries of a fragment's map, whose names must be new. -/
def addNamed (clause : FragmentClause) :
    List (String × Value) → Collector → Except Error Collector
  | [], c => .ok c
  | (key, value) :: rest, c =>
    match paramName clause key with
    | .error e => .error e
    | .ok name =>
      if (Fields.keys c.named).contains name then refuse (.repeatedParam clause.text name)
      else addNamed clause rest { c with named := c.named ++ [(name, value)] }

/-- Adds the parameters of a raw fragment, which have to suit the style. -/
def extend (style : Style) (clause : FragmentClause) (c : Collector) :
    Option FragmentParams → Except Error Collector
  | none => .ok c
  | some params =>
    if params.isEmpty then .ok c
    else match style.isNamed, params with
      | true, .map entries => addNamed clause entries c
      | true, .list _ => refuse (.paramsNotMap clause.text style)
      | false, .list items => .ok { c with positional := c.positional ++ items }
      | false, .map _ => refuse (.paramsNotList clause.text style)

/-- The collected parameters, in the container of the style. -/
def parameters (style : Style) (c : Collector) : Value :=
  if style.isNamed then Fields.toValue c.named else .list c.positional

end Collector
end FluentSql
