import FluentSql.Checked
import FluentSql.Identifier
import FluentSql.Operator
import FluentSql.Params
import FluentSql.Value.Coerce

/-!
Conditions. A condition is a leaf that compares a column, a raw fragment with parameters of its own,
or a group of conditions. Every node carries the connector that joins it to the node before it; the
first node's connector is not used. A node that was put in unchecked is kept as it is.
-/

namespace FluentSql

/-- What a column is compared with. -/
inductive Operand where
  | one (value : Value)
  | list (values : List Value)
  | range (low high : Value)
deriving BEq, Repr

namespace Operand

def toValue : Operand → Value
  | .one value => value
  | .list values => .tuple values
  | .range low high => .tuple [low, high]

/-- The operand that a value gives to an operator. -/
def check (operator : Operator) (field value : Value) : Except Error Operand :=
  if operator.takesList then
    match value.items? with
    | none => refuse (.operandShape operator.text .sequence field)
    | some [] => refuse (.emptyOperand operator.text field)
    | some values => .ok (.list values)
  else if operator.takesRange then
    match value.items? with
    | none => refuse (.operandShape operator.text .pair field)
    | some [low, high] => .ok (.range low high)
    | some values => refuse (.operandCount operator.text values.length field)
  else .ok (.one value)

end Operand

inductive Node where
  | leaf (field : String) (operator : Operator) (operand : Operand) (connector : Connector)
  | raw (sql : String) (params : Option FragmentParams) (connector : Connector)
  | group (items : List Node) (connector : Connector)
  | stray (value : Value)
deriving BEq, Repr

namespace Node

def connector : Node → Connector
  | .leaf _ _ _ connector => connector
  | .raw _ _ connector => connector
  | .group _ connector => connector
  | .stray _ => .and

def withConnector (connector : Connector) : Node → Node
  | .leaf field operator operand _ => .leaf field operator operand connector
  | .raw sql params _ => .raw sql params connector
  | .group items _ => .group items connector
  | .stray value => .stray value

/-- A leaf out of loosely typed parts. -/
def ofComparison (field operator value : Value) (connector : Connector) : Except Error Node := do
  let operator ← Operator.check Operator.all operator
  let operand ← Operand.check operator field value
  let field ← Identifier.check "field" field
  .ok (.leaf field operator operand connector)

/-- A leaf that tests for equality. -/
def ofEquality (field value : Value) (connector : Connector) : Except Error Node :=
  ofComparison field (.text Operator.eq.text) value connector

/-- The text of a fragment, which must not be blank. -/
def checkFragment : Value → Except Error String
  | .text s => if (Text.trim s).isEmpty then refuse .emptyFragment else .ok (Text.trim s)
  | _ => refuse .emptyFragment

/-- Parameters of a fragment: first the container, then the keys of a map. -/
def checkParams (v : Value) : Checked (Option FragmentParams) :=
  match Params.check v with
  | .error e => .stop e
  | .ok none => .ok none
  | .ok (some (.list items)) => .ok (some (.list items))
  | .ok (some (.map entries)) =>
    (Checked.ofOption (Value.asFields? (.map entries))).map (some ∘ FragmentParams.map)

/-- A raw fragment out of loosely typed parts. -/
def ofFragment (sql params : Value) (connector : Connector) : Except Error Node :=
  Checked.toExcept
    (((Checked.ofExcept (checkFragment sql)).map
        fun sql params => Node.raw sql params connector).app
      ((checkParams params).inField "params"))

/-- A group, which holds at least one node. -/
def ofItems (items : List Node) (connector : Connector) : Except Error Node :=
  if items.isEmpty then refuse .emptyGroup else .ok (.group items connector)

def checkConnector (v : Value) : Checked Connector :=
  .ofOption (v.asText?.bind Connector.ofText?)

/-- Puts the connector that a value gives to a node that was built. -/
def joinedBy (connector : Value) (node : Except Error Node) : Except Error Node :=
  Checked.toExcept
    (((Checked.ofExcept node).map fun node connector => node.withConnector connector).app
      ((checkConnector connector).inField "connector"))

/-- The kinds by which plain data tells nodes apart. -/
def leafKind : String := "predicate"

def rawKind : String := "raw"

def groupKind : String := "group"

def checkKind (kind : String) (v : Value) : Checked Unit :=
  match v with
  | .text s => if s = kind then .ok () else .invalid [""]
  | _ => .invalid [""]

/-- A leaf out of plain data: the operator and the operand come first, then the fields in order. -/
def leafOfFields (data : List (String × Value)) : Checked Node :=
  let given := (Fields.get? "operator" data).getD (.text Operator.eq.text)
  let value := (Fields.get? "value" data).getD .none
  let field := (Fields.get? "field" data).getD .none
  (Checked.ofExcept (Operator.check Operator.all given)).andThen fun operator =>
  (Checked.ofExcept (Operand.check operator field value)).andThen fun operand =>
  (((checkField data "kind" (.ok ()) (checkKind leafKind)).map
      fun _ field connector => Node.leaf field operator operand connector).app
    (checkField data "field" (.invalid [""]) fun v => .ofExcept (Identifier.check "field" v))).app
    (checkField data "connector" (.ok .and) checkConnector)

def rawOfFields (data : List (String × Value)) : Checked Node :=
  ((((checkField data "kind" (.ok ()) (checkKind rawKind)).map
      fun _ sql params connector => Node.raw sql params connector).app
    (checkField data "sql" (.invalid [""]) fun v => .ofExcept (checkFragment v))).app
    (checkField data "params" (.ok none) checkParams)).app
    (checkField data "connector" (.ok .and) checkConnector)

/-- A group out of plain data and the outcome of checking its items. -/
def groupOfFields (data : List (String × Value)) (items : Option (Checked (List Node))) :
    Checked Node :=
  let checked := ((items.getD (.ok [])).inField "items").andThen fun items =>
    if items.isEmpty then .stop Refusal.emptyGroup.toError else .ok items
  (((checkField data "kind" (.ok ()) (checkKind groupKind)).map
      fun _ items connector => Node.group items connector).app checked).app
    (checkField data "connector" (.ok .and) checkConnector)

/-- A node out of plain data, by its kind. -/
def ofFields (data : List (String × Value)) (items : Option (Checked (List Node))) : Checked Node :=
  match Fields.get? "kind" data with
  | some (.text kind) =>
    if kind = leafKind then leafOfFields data
    else if kind = rawKind then rawOfFields data
    else if kind = groupKind then groupOfFields data items
    else .invalid [""]
  | _ => .invalid [""]

mutual

/-- The node that a value describes. -/
def check : Value → Checked Node
  | .map entries => ofFields (Value.namedEntries entries) (checkItems entries)
  | _ => .invalid [""]

/-- The nodes under the key `items`. -/
def checkItems : List (Value × Value) → Option (Checked (List Node))
  | [] => none
  | (.text name, value) :: rest =>
    if name = "items" then some (checkList value) else checkItems rest
  | _ :: rest => checkItems rest

/-- The nodes that a sequence of values describes. -/
def checkList : Value → Checked (List Node)
  | .list values => checkAll values
  | .tuple values => checkAll values
  | .iterator values => checkAll values
  | _ => .invalid [""]

def checkAll : List Value → Checked (List Node)
  | [] => .ok []
  | value :: rest => ((check value).map List.cons).app (checkAll rest)

end

/-- A group out of plain data. -/
def groupOfData (data : List (String × Value)) : Checked Node :=
  groupOfFields data ((Fields.get? "items" data).map checkList)

/-- A node of one kind out of a value that has to be a map. -/
def checkAs (ofData : List (String × Value) → Checked Node) : Value → Checked Node
  | .map entries => ofData (Value.namedEntries entries)
  | _ => .invalid [""]

def checkLeaf : Value → Checked Node := checkAs leafOfFields

def checkRaw : Value → Checked Node := checkAs rawOfFields

def checkGroup : Value → Checked Node := checkAs groupOfData

end Node
end FluentSql
