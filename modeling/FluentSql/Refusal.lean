import FluentSql.Failure
import FluentSql.Keyword

/-!
The reasons for which a statement is refused before any database is asked. Each reason holds what
its report shows and nothing else, so what a report can reveal is read off the constructors.
-/

namespace FluentSql

/-- The two operand forms of operators that take several values. -/
inductive OperandShape where
  | sequence
  | pair
deriving DecidableEq, Repr

inductive Refusal where
  | emptyName (role : String) (given : Value)
  | malformedName (role name : String)
  | longName (role name : String)
  | malformedTable (reference : String)
  | operatorNotText (type : String)
  | unknownOperator (operator : String) (allowed : List String)
  | dangerousText (role text : String)
  | projectionNotText (type : String)
  | malformedProjection (columns : String)
  | paramsNotContainer (type : String)
  | operandShape (operator : String) (shape : OperandShape) (field : Value)
  | emptyOperand (operator : String) (field : Value)
  | operandCount (operator : String) (count : Nat) (field : Value)
  | emptyFragment
  | emptyGroup
  | entryNotSequence (entry : Value)
  | entryLength (length : Nat)
  | emptyConditions
  | idleCallback
  | conditionArguments (first second third : String)
  | emptyJoinCondition
  | joinForm (table : String)
  | joinArguments (table : Value)
  | emptyClause (clause : String)
  | entryForm (entry : String)
  | columnWithParams
  | unknownDirection (given : Value)
  | noOperation
  | noTable
  | noValues (operation : Operation)
  | unguardedWrite (operation : Operation) (table : String)
  | strayClauses (operation : Operation) (clauses : List String)
  | paramsNotMap (clause : String) (style : Style)
  | paramsNotList (clause : String) (style : Style)
  | emptyParamName (clause name : String)
  | repeatedParam (clause name : String)
  | rawCount
  | countOperation (operation : Operation)
  | unknownNode (type : String)
  | unknownOperation (operation : Operation)
  | unknownFetchStyle (given : Value)
  | notNatural (argument : String) (given : Value)
  | pageTooSmall (page perPage : Nat)
  | consumed
  | operationConflict (current wanted : Operation)
  | emptyGrouping
  | emptyOrdering
  | emptyRawSql
  | missingValues (operation : Operation)
  | groupForOne
  | groupNeedsRows
  | executeNeedsRaw

namespace Refusal

def code : Refusal → Code
  | .emptyName .. | .malformedName .. | .longName .. | .malformedTable .. => .invalidIdentifier
  | .operatorNotText .. | .unknownOperator .. => .invalidOperator
  | .noOperation => .build
  | .noTable => .missingTable
  | .noValues .. | .missingValues .. => .missingValues
  | .unguardedWrite .. => .unconditionalWrite
  | .countOperation .. | .operationConflict .. => .operationConflict
  | .unknownNode .. | .unknownOperation .. => .compileInternal
  | .notNatural .. | .pageTooSmall .. => .invalidLimit
  | .consumed => .statementConsumed
  | _ => .invalidArgument

def message : Refusal → String
  | .emptyName role _ => s!"Empty {role} name"
  | .malformedName role name => s!"Invalid {role} name: {name}"
  | .longName role name => s!"{role} name too long: {name}"
  | .malformedTable reference => s!"Invalid table name: {reference}"
  | .operatorNotText type => s!"Operator must be a string, got {type}"
  | .unknownOperator operator _ => s!"Unsupported operator: {operator}"
  | .dangerousText role text => s!"Potentially dangerous {role}: {text}"
  | .projectionNotText type => s!"Projection must be a string, got {type}"
  | .malformedProjection columns => s!"Malformed projection: {columns}"
  | .paramsNotContainer type => s!"Raw parameters must be a sequence or a mapping, got {type}"
  | .operandShape operator .sequence _ => s!"{operator} requires a sequence of values"
  | .operandShape operator .pair _ => s!"{operator} requires a pair of values"
  | .emptyOperand operator _ => s!"{operator} requires at least one value"
  | .operandCount operator count _ => s!"{operator} requires exactly two values, got {count}"
  | .emptyFragment => "Raw condition must be a non-empty string"
  | .emptyGroup => "Condition group must contain at least one condition"
  | .entryNotSequence entry =>
    "A condition list must be a sequence of conditions such as [('age', '>', 18)], got entry " ++
      s!"{entry.display} of type {entry.typeName}; " ++
      "wrap a single (field, operator, value) condition in a list"
  | .entryLength length => s!"Condition entries must have 2 or 3 items, got {length}"
  | .emptyConditions => "Condition list must not be empty"
  | .idleCallback => "Nested condition callback added no conditions"
  | .conditionArguments first second third =>
    s!"Unsupported condition arguments: ({first}, {second}, {third})"
  | .emptyJoinCondition => "Join condition must be a non-empty string"
  | .joinForm _ =>
    "Join requires either a condition string or left field, operator and right field"
  | .joinArguments _ =>
    "join() takes either a condition string or first field, operator and second field"
  | .emptyClause clause => s!"Raw {clause} clause must be a non-empty string"
  | .entryForm entry => s!"{entry} requires exactly one of column or raw"
  | .columnWithParams => "Parameters are only accepted for raw clauses"
  | .unknownDirection given => s!"Invalid sort direction: {given.toText}. Use ASC or DESC"
  | .noOperation => "Statement has no operation; call select(), insert(), update() or delete()"
  | .noTable => "Statement has no table; call table() first"
  | .noValues operation => s!"{operation.text} requires at least one column value"
  | .unguardedWrite operation table =>
    s!"{operation.text} without a WHERE clause affects every row of {table}; " ++
      "call unconditional() to confirm"
  | .strayClauses operation clauses =>
    s!"{operation.text} does not support: " ++ ", ".intercalate clauses
  | .paramsNotMap clause style =>
    s!"Parameters of {clause} must be a mapping for {style.text} placeholders"
  | .paramsNotList clause style =>
    s!"Parameters of {clause} must be a sequence for {style.text} placeholders"
  | .emptyParamName clause _ => s!"Parameter names of {clause} must be non-empty strings"
  | .repeatedParam clause name => s!"Duplicate parameter name in {clause}: {name}"
  | .rawCount =>
    "Raw statements cannot be rewritten into a COUNT; compile() them and count the fetched rows"
  | .countOperation operation => s!"count() requires a SELECT statement, got {operation.text}"
  | .unknownNode type => s!"Unknown predicate node type: {type}"
  | .unknownOperation operation =>
    s!"Operation type {operation.text} not supported by StatementCompiler"
  | .unknownFetchStyle given => s!"Unknown fetch style: {given.toText}"
  | .notNatural argument given =>
    s!"{argument} must be a non-negative integer, got {given.display}"
  | .pageTooSmall page perPage =>
    s!"page and per_page must be at least 1, got page={page}, per_page={perPage}"
  | .consumed => "Query builder was already executed; start a new query for each statement"
  | .operationConflict current wanted =>
    s!"Statement is already a {current.text}; cannot turn it into {wanted.text}"
  | .emptyGrouping => "group_by() requires at least one column"
  | .emptyOrdering => "order_by() mapping must not be empty"
  | .emptyRawSql => "raw_sql() requires a non-empty SQL string"
  | .missingValues operation =>
    s!"{operation.text} requires a non-empty mapping of column values"
  | .groupForOne => "GROUP fetch style is not supported by one()"
  | .groupNeedsRows => "GROUP fetch style needs a result set, not a single row"
  | .executeNeedsRaw =>
    "execute() runs raw statements only; use get(), insert(), update() or delete()"

/-- The argument that was refused. -/
def field : Refusal → Value
  | .emptyName role _ | .malformedName role _ | .longName role _ | .dangerousText role _ =>
    .text role
  | .malformedTable _ | .noTable => .text "table"
  | .operatorNotText _ | .unknownOperator .. => .text "operator"
  | .projectionNotText _ | .malformedProjection _ => .text "columns"
  | .paramsNotContainer _ | .columnWithParams => .text "params"
  | .operandShape _ _ field | .emptyOperand _ field | .operandCount _ _ field => field
  | .emptyFragment => .text "sql"
  | .emptyGroup => .text "items"
  | .entryNotSequence _ | .entryLength _ | .emptyConditions | .idleCallback
  | .conditionArguments .. | .unguardedWrite .. => .text "where"
  | .emptyJoinCondition => .text "condition"
  | .joinForm _ | .joinArguments _ => .text "join"
  | .emptyClause clause | .paramsNotMap clause _ | .paramsNotList clause _
  | .emptyParamName clause _ | .repeatedParam clause _ => .text clause
  | .entryForm _ => .text "column"
  | .unknownDirection _ => .text "direction"
  | .noOperation | .strayClauses .. | .countOperation _ | .operationConflict .. => .text "operation"
  | .noValues _ | .missingValues _ => .text "values"
  | .rawCount | .emptyRawSql | .executeNeedsRaw => .text "raw_sql"
  | .unknownFetchStyle _ | .groupForOne | .groupNeedsRows => .text "fetch_style"
  | .notNatural argument _ => .text argument
  | .pageTooSmall .. => .text "paginate"
  | .emptyGrouping => .text "group_by"
  | .emptyOrdering => .text "order_by"
  | .unknownNode _ | .unknownOperation _ | .consumed => .none

/-- The refused value, where a report may show it. -/
def value : Refusal → Value
  | .emptyName _ given | .unknownDirection given | .unknownFetchStyle given
  | .joinArguments given => given
  | .malformedName _ name | .longName _ name => .text name
  | .malformedTable reference => .text reference
  | .unknownOperator operator _ => .text operator
  | .dangerousText _ text => .text text
  | .malformedProjection columns => .text columns
  | .joinForm table | .unguardedWrite _ table => .text table
  | .emptyParamName _ name | .repeatedParam _ name => .text name
  | .operationConflict _ wanted => .text wanted.text
  | .groupForOne => .text FetchStyle.group.text
  | _ => .none

/-- Details beside the argument and its value. -/
def details : Refusal → List (String × Value)
  | .unknownOperator _ allowed => [("allowed", .list (allowed.map .text))]
  | .strayClauses _ clauses => [("clauses", .list (clauses.map .text))]
  | .unknownNode type => [("node_type", .text type)]
  | .unknownOperation operation => [("node_type", .text operation.text)]
  | _ => []

def toFailure (r : Refusal) : Failure := .ofArgument r.code r.message r.field r.value r.details

/-- The values of which the report shows the text. -/
def shown : Refusal → List Value
  | .emptyName _ given | .entryNotSequence given | .unknownDirection given
  | .unknownFetchStyle given | .notNatural _ given | .joinArguments given => [given]
  | .pageTooSmall page perPage => [.ofNat page, .ofNat perPage]
  | _ => []

/-- The report on a refusal. It cannot be written when a number in it has too many digits. -/
def toError (r : Refusal) : Error :=
  if r.shown.all Value.isWritable then .failure r.toFailure else .raised .tooManyDigits

end Refusal

/-- Refuses the statement for a reason. -/
def refuse {α : Type} (r : Refusal) : Except Error α := .error r.toError

end FluentSql
