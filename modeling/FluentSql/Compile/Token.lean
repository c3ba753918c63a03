import FluentSql.Clause.Node
import FluentSql.Compile.Piece

/-!
Conditions as a line of tokens: atoms, connectors and parentheses. A group of several items stands
in parentheses when it has siblings; a group of one item is written as its item.
-/

namespace FluentSql

/-- A condition that is not a group. -/
inductive Atom where
  | leaf (field : String) (operator : Operator) (operand : Operand)
  | fragment (sql : String) (params : Option FragmentParams)
  | stray (value : Value)

inductive Token where
  | atom (a : Atom)
  | connector (c : Connector)
  | opening
  | closing

namespace Atom

/-- A leaf as text. Nothing is bound when the operator tests for absence or presence. -/
def leafPieces (field : String) (operator : Operator) : Operand → List Piece
  | .one value =>
    if value.isNone && operator.testsNull then [.name field, .text " IS NULL"]
    else if value.isNone && operator.testsNotNull then [.name field, .text " IS NOT NULL"]
    else [.name field, .text (" " ++ operator.text ++ " "), .bound value]
  | .list values =>
    [.name field, .text (" " ++ operator.text ++ " (")] ++
      Piece.separated ", " (values.map fun value => [.bound value]) ++ [.text ")"]
  | .range low high =>
    [.name field, .text (" " ++ operator.text ++ " "), .bound low, .text " AND ", .bound high]

/-- A node of unknown kind stops the writing. -/
def pieces : Atom → List Piece
  | .leaf field operator operand => leafPieces field operator operand
  | .fragment sql params => [.fragment .condition sql params]
  | .stray value => [.halt (Refusal.unknownNode value.typeName).toError]

end Atom

namespace Token

def pieces : Token → List Piece
  | .atom a => a.pieces
  | .connector c => [.text (" " ++ c.text ++ " ")]
  | .opening => [.text "("]
  | .closing => [.text ")"]

end Token

namespace Node

mutual

/-- The tokens of a node; `isolated` says whether it has siblings. -/
def tokens (isolated : Bool) : Node → List Token
  | .leaf field operator operand _ => [.atom (.leaf field operator operand)]
  | .raw sql params _ => [.atom (.fragment sql params)]
  | .group [item] _ => tokens isolated item
  | .group items _ =>
    if isolated then .opening :: sequence true items ++ [.closing] else sequence true items
  | .stray value => [.atom (.stray value)]

/-- The tokens of a list of nodes, each but the first after its connector. -/
def sequence (isolated : Bool) : List Node → List Token
  | [] => []
  | node :: rest => tokens isolated node ++ continued isolated rest

def continued (isolated : Bool) : List Node → List Token
  | [] => []
  | node :: rest =>
    .connector node.connector :: tokens isolated node ++ continued isolated rest

end

/-- The tokens of the conditions of a clause. -/
def clauseTokens (nodes : List Node) : List Token := sequence (1 < nodes.length) nodes

mutual

/-- The parameters of the raw fragments in a node, in order. -/
def fragmentParams : Node → List FragmentParams
  | .raw _ (some params) _ => [params]
  | .group items _ => fragmentParamsOf items
  | _ => []

def fragmentParamsOf : List Node → List FragmentParams
  | [] => []
  | node :: rest => fragmentParams node ++ fragmentParamsOf rest

end

end Node
end FluentSql
