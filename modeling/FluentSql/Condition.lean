import FluentSql.Clause.Node

/-!
The shapes in which a condition may be asked for: a column and a value, a column, an operator and a
value, a sequence of such entries, a map from columns to values, or a callback that asks for the
conditions of a group. All shapes but the first two give a group.
-/

namespace FluentSql.Condition

/-- A column and a value, or a column, an operator and a value. -/
def ofEntryItems : List Value → Except Error Node
  | [field, value] => Node.ofEquality field value .and
  | [field, operator, value] => Node.ofComparison field operator value .and
  | items => refuse (.entryLength items.length)

def ofEntry (entry : Value) : Except Error Node :=
  match entry.sequence? with
  | some items => ofEntryItems items
  | none => refuse (.entryNotSequence entry)

/-- A group of the entries of a list. -/
def ofEntries (entries : List Value) (connector : Connector) : Except Error Node := do
  Node.ofItems (← entries.mapM ofEntry) connector

/-- A group of equalities. -/
def ofMap (entries : List (Value × Value)) (connector : Connector) : Except Error Node := do
  Node.ofItems (← entries.mapM fun (field, value) => Node.ofEquality field value .and) connector

/-- A group out of a loosely typed list or map. -/
def groupOf (conditions : Value) (connector : Connector) : Except Error Node :=
  match conditions with
  | .map entries => ofMap entries connector
  | .text s =>
    match s.toList with
    | [] => Node.ofItems [] connector
    | c :: _ => refuse (.entryNotSequence (.text (String.singleton c)))
  | .bytes bs =>
    match bs with
    | [] => Node.ofItems [] connector
    | b :: _ => refuse (.entryNotSequence (.int b.toNat))
  | v =>
    match v.items? with
    | some entries => ofEntries entries connector
    | none => .error (.raised (.typeError s!"'{v.typeName}' object is not iterable"))

/-- How a report names an argument that may be absent. -/
def argumentType (v : Value) : String := if v.isMissing then "-" else v.typeName

def unsupported (first second third : Value) : Except Error Node :=
  refuse (.conditionArguments first.typeName (argumentType second) (argumentType third))

/-- The two comparing shapes. -/
def ofArguments (first second third : Value) (connector : Connector) : Except Error Node :=
  match first with
  | .text _ =>
    if third.isMissing then Node.ofEquality first second connector
    else if second.isMissing then unsupported first second third
    else Node.ofComparison first second third connector
  | _ => unsupported first second third

/-- The group of the conditions that a callback asked for. -/
def ofCallback (items : List Node) (connector : Connector) : Except Error Node :=
  if items.isEmpty then refuse .idleCallback else .ok (.group items connector)

/-- The connector of a call that takes all shapes, by the call's name. -/
def connectorOf? (name : String) : Option Connector :=
  if name = "where" then some .and
  else if name = "or_where" then some .or
  else none

/-- The calls that add one condition, with the least and the greatest number of their arguments. -/
def arities : List (String × Nat × Nat) :=
  [("where", 1, 3), ("or_where", 1, 3), ("where_raw", 1, 2), ("or_where_raw", 1, 2),
    ("where_in", 2, 2), ("where_not_in", 2, 2), ("where_null", 1, 1), ("where_not_null", 1, 1),
    ("where_between", 3, 3)]

def callNames : List String := arities.map (·.1)

/-- Whether a call exists and takes that many arguments. -/
def accepts (name : String) (count : Nat) : Bool :=
  match arities.lookup name with
  | some (least, greatest) => least ≤ count && count ≤ greatest
  | none => false

/-- The complaint about a call that a group does not have, or not with that many arguments. -/
def noSuchCall (name : String) : Error :=
  if callNames.contains name then
    .raised (.typeError s!"{name}() was called with a wrong number of arguments")
  else .raised (.attributeError s!"'ConditionGroup' object has no attribute '{name}'")

/-- The node of a call that takes one shape only. -/
def ofSimpleCall (name : String) (args : List Value) : Except Error Node :=
  match name, args with
  | "where_raw", [sql] => Node.ofFragment sql .none .and
  | "where_raw", [sql, params] => Node.ofFragment sql params .and
  | "or_where_raw", [sql] => Node.ofFragment sql .none .or
  | "or_where_raw", [sql, params] => Node.ofFragment sql params .or
  | "where_in", [field, values] => Node.ofComparison field (.text Operator.among.text) values .and
  | "where_not_in", [field, values] =>
    Node.ofComparison field (.text Operator.notAmong.text) values .and
  | "where_null", [field] => Node.ofComparison field (.text Operator.is.text) .none .and
  | "where_not_null", [field] => Node.ofComparison field (.text Operator.isNot.text) .none .and
  | "where_between", [field, low, high] =>
    Node.ofComparison field (.text Operator.between.text) (.tuple [low, high]) .and
  | _, _ => .error (noSuchCall name)

mutual

/-- The node that one to three arguments ask for. -/
def resolve (first second third : Value) (connector : Connector) : Except Error Node :=
  if second.isMissing && third.isMissing then
    match first with
    | .callback calls =>
      match ofCalls calls with
      | .ok items => ofCallback items connector
      | .error e => .error e
    | .map entries => if entries.isEmpty then refuse .emptyConditions else ofMap entries connector
    | .list items => if items.isEmpty then refuse .emptyConditions else ofEntries items connector
    | .tuple items => if items.isEmpty then refuse .emptyConditions else ofEntries items connector
    | first => unsupported first second third
  else ofArguments first second third connector

/-- The nodes of a callback's calls, up to the first call that fails. -/
def ofCalls : List (String × List Value) → Except Error (List Node)
  | [] => .ok []
  | (name, args) :: rest =>
    match ofCall name args with
    | .error e => .error e
    | .ok node =>
      match ofCalls rest with
      | .error e => .error e
      | .ok nodes => .ok (node :: nodes)

/-- The node that a call on a group adds. -/
def ofCall (name : String) : List Value → Except Error Node
  | [first] =>
    match connectorOf? name with
    | some connector => resolve first .missing .missing connector
    | none => ofSimpleCall name [first]
  | [first, second] =>
    match connectorOf? name with
    | some connector => resolve first second .missing connector
    | none => ofSimpleCall name [first, second]
  | [first, second, third] =>
    match connectorOf? name with
    | some connector => resolve first second third connector
    | none => ofSimpleCall name [first, second, third]
  | _ => .error (noSuchCall name)

end

end FluentSql.Condition
