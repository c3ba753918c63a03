import FluentSql.Proofs.Grammar
import FluentSql.Proofs.ValidNodes
import FluentSql.Proofs.Writing

/-!
What a written condition means. Leaving out parentheses changes the tree in two ways: a group of one
item becomes its item, and a group that stands alone in its clause gives its items to the clause.
The tokens of a clause are read back as the tree changed in these ways, and the changes do not touch
the truth value, in which AND binds closer than OR and a group is one unit.
-/

namespace FluentSql

/-- The runs of a level between its ORs. The connector before the first unit is not looked at. -/
def Connector.runs {α : Type} : List (Connector × α) → List (List α)
  | [] => []
  | [(_, a)] => [[a]]
  | (_, a) :: (c, b) :: rest =>
    match c, runs ((c, b) :: rest) with
    | .and, run :: later => (a :: run) :: later
    | _, later => [a] :: later

/-- A level holds when every unit of some run holds. -/
def Connector.holds (level : List (Connector × Bool)) : Bool := (runs level).any (·.all id)

namespace Node

mutual

/-- The truth value of a node under a truth assignment to the atoms; a group is one unit. -/
def holds (truth : Atom → Bool) : Node → Bool
  | .leaf field operator operand _ => truth (.leaf field operator operand)
  | .raw sql params _ => truth (.fragment sql params)
  | .stray v => truth (.stray v)
  | .group items _ => Connector.holds (units truth items)

/-- The units of a level with their truth values. -/
def units (truth : Atom → Bool) : List Node → List (Connector × Bool)
  | [] => []
  | node :: rest => (node.connector, holds truth node) :: units truth rest

end

/-- The truth value of the conditions of a clause. -/
def clauseHolds (truth : Atom → Bool) (nodes : List Node) : Bool :=
  Connector.holds (units truth nodes)

mutual

/-- The node with every group of one item replaced by its item under the group's connector. -/
def collapse : Node → Node
  | .group [item] c => (collapse item).withConnector c
  | .group items c => .group (collapseAll items) c
  | node => node

def collapseAll : List Node → List Node
  | [] => []
  | node :: rest => collapse node :: collapseAll rest

end

/-- The conditions of a clause, with a group that stands alone replaced by its items. -/
def splice : List Node → List Node
  | [.group items _] => items
  | nodes => nodes

mutual

/-- The node with the connector before the first unit of each level inside it set to AND. -/
def led : Node → Node
  | .group items c => .group (ledLevel items) c
  | node => node

/-- A level whose first unit is given AND, as are the first units of the levels inside it. -/
def ledLevel : List Node → List Node
  | [] => []
  | node :: rest => (led node).withConnector .and :: ledAll rest

def ledAll : List Node → List Node
  | [] => []
  | node :: rest => led node :: ledAll rest

end

/-- The tree that the tokens of a clause have. -/
def clauseTree (nodes : List Node) : List Node := ledLevel (splice (collapseAll nodes))

theorem withConnector_withConnector (c d : Connector) (node : Node) :
    (node.withConnector c).withConnector d = node.withConnector d := by
  cases node <;> rfl

theorem led_withConnector (c : Connector) (node : Node) :
    led (node.withConnector c) = (led node).withConnector c := by
  cases node <;> rfl

theorem withConnector_connector (node : Node) : node.withConnector node.connector = node := by
  cases node <;> rfl

theorem connector_led (node : Node) : (led node).connector = node.connector := by
  cases node <;> rfl

theorem connector_withConnector {node : Node} (valid : node.Valid) (c : Connector) :
    (node.withConnector c).connector = c := by
  cases node with
  | stray v => exact absurd valid id
  | leaf | raw | group => rfl

mutual

theorem valid_collapse : ∀ node : Node, node.Valid → (collapse node).Valid
  | .leaf .., h | .raw .., h => h
  | .group [item] c, h => valid_withConnector (valid_collapse item h.2.1) c
  | .group (first :: second :: rest) _, h =>
      ⟨List.cons_ne_nil _ _, valid_collapse first h.2.1, valid_collapseAll (second :: rest) h.2.2⟩

theorem valid_collapseAll : ∀ nodes : List Node, ValidAll nodes → ValidAll (collapseAll nodes)
  | [], h => h
  | node :: rest, h => ⟨valid_collapse node h.1, valid_collapseAll rest h.2⟩

end

/-- A node keeps its connector, also when it gives its place to its one item. -/
theorem connector_collapse {node : Node} (valid : node.Valid) :
    (collapse node).connector = node.connector := by
  match node, valid with
  | .leaf .., _ | .raw .., _ | .group (_ :: _ :: _) _, _ => rfl
  | .group [item] c, h => exact connector_withConnector (valid_collapse item h.2.1) c

open Grammar (IsUnit IsLevel)

mutual

/-- A node with siblings is written as a unit. -/
theorem tokens_isUnit (c : Connector) : ∀ node : Node, node.Valid →
    IsUnit c (tokens true node) ((led (collapse node)).withConnector c)
  | .leaf field operator operand _, _ => .atom c (.leaf field operator operand)
  | .raw sql params _, _ => .atom c (.fragment sql params)
  | .group [item] d, h => by
      have inner := tokens_isUnit c item h.2.1
      rw [tokens, collapse, led_withConnector, withConnector_withConnector]
      exact inner
  | .group (first :: second :: rest) _, h => by
      have inner : IsLevel (sequence true (first :: second :: rest))
          (ledLevel (collapseAll (first :: second :: rest))) :=
        continued_isLevel (second :: rest) h.2.2 (.one (tokens_isUnit .and first h.2.1))
      exact .group c inner

/-- Nodes after their connectors go on with a level. -/
theorem continued_isLevel : ∀ nodes : List Node, ValidAll nodes →
    ∀ {ts : List Token} {ns : List Node}, IsLevel ts ns →
      IsLevel (ts ++ continued true nodes) (ns ++ ledAll (collapseAll nodes))
  | [], _, ts, ns, level => by
      rw [continued, collapseAll, ledAll, List.append_nil, List.append_nil]
      exact level
  | node :: rest, h, ts, ns, level => by
      have unit := tokens_isUnit node.connector node h.1
      have same : (led (collapse node)).withConnector node.connector = led (collapse node) := by
        rw [← connector_collapse h.1, ← connector_led, withConnector_connector]
      rw [same] at unit
      have longer := continued_isLevel rest h.2 (.more node.connector level unit)
      rw [List.append_assoc, List.append_assoc] at longer
      exact longer

end

/-- A level of several nodes is written as a level. -/
theorem sequence_isLevel {node : Node} {rest : List Node} (h : ValidAll (node :: rest)) :
    IsLevel (sequence true (node :: rest)) (ledLevel (collapseAll (node :: rest))) :=
  continued_isLevel rest h.2 (.one (tokens_isUnit .and node h.1))

/-- The connector of a node that stands alone does not count. -/
theorem ledLevel_splice_withConnector (c : Connector) (node : Node) :
    ledLevel (splice [node.withConnector c]) = ledLevel (splice [node]) := by
  cases node <;> rfl

/-- A node that stands alone is written as a level, without parentheses around it. -/
theorem tokens_isLevel : ∀ node : Node, node.Valid →
    IsLevel (tokens false node) (ledLevel (splice [collapse node]))
  | .leaf field operator operand _, _ => .one (.atom .and (.leaf field operator operand))
  | .raw sql params _, _ => .one (.atom .and (.fragment sql params))
  | .group [item] d, h => by
      have inner := tokens_isLevel item h.2.1
      rw [tokens, collapse, ledLevel_splice_withConnector]
      exact inner
  | .group (first :: second :: rest) _, h => sequence_isLevel h.2

theorem clauseTokens_isLevel {nodes : List Node} (ne : nodes ≠ []) (valid : ValidAll nodes) :
    IsLevel (clauseTokens nodes) (clauseTree nodes) := by
  match nodes, ne, valid with
  | [node], _, valid =>
      have alone : clauseTokens [node] = tokens false node := List.append_nil _
      rw [alone]
      exact tokens_isLevel node valid.1
  | node :: next :: rest, _, valid =>
      have several :
          clauseTokens (node :: next :: rest) = sequence true (node :: next :: rest) := by
        simp [clauseTokens]
      have kept : splice (collapseAll (node :: next :: rest)) =
          collapseAll (node :: next :: rest) := by
        cases hfirst : collapse node <;> simp only [collapseAll, hfirst, splice]
      rw [several, clauseTree, kept]
      exact sequence_isLevel valid

theorem runs_leading {α : Type} (c d : Connector) (a : α) (rest : List (Connector × α)) :
    Connector.runs ((c, a) :: rest) = Connector.runs ((d, a) :: rest) := by
  cases rest <;> rfl

variable (truth : Atom → Bool)

theorem holds_withConnector (c : Connector) (node : Node) :
    holds truth (node.withConnector c) = holds truth node := by
  cases node <;> rfl

mutual

theorem holds_led : ∀ node : Node, holds truth (led node) = holds truth node
  | .leaf .. | .raw .. | .stray _ => rfl
  | .group items c => by
      rw [led, holds, holds]
      exact holds_ledLevel items

theorem holds_ledLevel : ∀ nodes : List Node,
    clauseHolds truth (ledLevel nodes) = clauseHolds truth nodes
  | [] => rfl
  | node :: rest => by
      rw [ledLevel, clauseHolds, clauseHolds, units, units, holds_withConnector, holds_led node,
        units_ledAll rest, Connector.holds, runs_leading _ node.connector]
      rfl

theorem units_ledAll : ∀ nodes : List Node, units truth (ledAll nodes) = units truth nodes
  | [] => rfl
  | node :: rest => by
      rw [ledAll, units, units, connector_led, holds_led node, units_ledAll rest]

end

theorem holds_single (c : Connector) (b : Bool) : Connector.holds [(c, b)] = b := by
  simp [Connector.holds, Connector.runs]

mutual

theorem holds_collapse : ∀ node : Node, node.Valid → holds truth (collapse node) = holds truth node
  | .leaf .., _ | .raw .., _ => rfl
  | .group [item] c, h => by
      rw [collapse, holds_withConnector, holds_collapse item h.2.1, holds, units, units,
        holds_single]
  | .group (first :: second :: rest) _, h => by
      change Connector.holds (units truth (collapseAll (first :: second :: rest))) = _
      rw [units_collapseAll (first :: second :: rest) h.2]
      rfl

theorem units_collapseAll : ∀ nodes : List Node, ValidAll nodes →
    units truth (collapseAll nodes) = units truth nodes
  | [], _ => rfl
  | node :: rest, h => by
      rw [collapseAll, units, units, connector_collapse h.1, holds_collapse node h.1,
        units_collapseAll rest h.2]

end

theorem holds_splice (nodes : List Node) :
    clauseHolds truth (splice nodes) = clauseHolds truth nodes := by
  match nodes with
  | [.group items c] => exact (holds_single c _).symm
  | [] | [.leaf ..] | [.raw ..] | [.stray _] => rfl
  | node :: next :: rest => cases node <;> rfl

theorem holds_clauseTree {nodes : List Node} (valid : ValidAll nodes) :
    clauseHolds truth (clauseTree nodes) = clauseHolds truth nodes := by
  rw [clauseTree, holds_ledLevel, holds_splice, clauseHolds, units_collapseAll truth nodes valid]
  rfl

end Node

namespace Compiler

variable {k : Compiler} {reserved : List String} {c c' : Collector} {sql : String}

theorem run_length {style : Style} {parts : List Part} {marks : List (List String)}
    (run : Collector.Run style reserved c parts marks c') : marks.length = parts.length := by
  induction run with
  | nil c => rfl
  | cons step run ih => rw [List.length_cons, List.length_cons, ih]

/-- Written conditions are the keyword and the texts of the tokens, side by side. -/
theorem writeFrom_conditions {keyword : String} {nodes : List Node} (ne : nodes ≠ [])
    (h : k.writeFrom reserved c (Statement.conditionPieces keyword nodes) = .ok (sql, c')) :
    ∃ marks, marks.length = (Node.clauseTokens nodes).length ∧
      sql = " " ++ keyword ++ " " ++ String.join
        (List.zipWith (fun t marks => t.part.text k marks) (Node.clauseTokens nodes) marks) := by
  have layout : Statement.conditionParts keyword nodes =
      .plain [.text (" " ++ keyword ++ " ")] :: (Node.clauseTokens nodes).map Token.part := by
    simp only [Statement.conditionParts, List.isEmpty_eq_false_iff.mpr ne, Bool.false_eq_true,
      if_false]
  rw [← Statement.pieces_conditionParts] at h
  obtain ⟨marks, run, rfl⟩ := writeFrom_parts (Statement.conditionParts_isSound keyword nodes) h
  have length := run_length run
  rw [layout] at length ⊢
  obtain ⟨first, rest, rfl⟩ := List.exists_cons_of_length_eq_add_one length
  refine ⟨rest, by simpa using length, ?_⟩
  rw [List.zipWith_cons_cons, String.join_cons, List.zipWith_map_left]
  simp [Part.text, Piece.plainText]

/-- The text of a condition means what its tree means. Its tokens have one tree in the grammar: the
given one without groups of one item and without a group around the whole clause. Under every truth
assignment that tree has the truth value of the given one. -/
theorem conditions_keep_meaning {nodes : List Node} (ne : nodes ≠ [])
    (valid : Node.ValidAll nodes) :
    (∀ tree, Grammar.IsLevel (Node.clauseTokens nodes) tree ↔ tree = Node.clauseTree nodes) ∧
      (∀ tree, Grammar.IsLevel (Node.clauseTokens nodes) tree →
        ∀ truth, Node.clauseHolds truth tree = Node.clauseHolds truth nodes) ∧
      (∀ (k : Compiler) reserved c keyword sql c',
        k.writeFrom reserved c (Statement.conditionPieces keyword nodes) = .ok (sql, c') →
        ∃ marks, marks.length = (Node.clauseTokens nodes).length ∧
          sql = " " ++ keyword ++ " " ++ String.join (List.zipWith
            (fun t marks => t.part.text k marks) (Node.clauseTokens nodes) marks)) := by
  have unique (tree : List Node) :
      Grammar.IsLevel (Node.clauseTokens nodes) tree ↔ tree = Node.clauseTree nodes := by
    constructor
    · exact Grammar.isLevel_unique (Node.clauseTokens_isLevel ne valid)
    · rintro rfl
      exact Node.clauseTokens_isLevel ne valid
  refine ⟨unique, fun tree htree truth => ?_, fun k reserved c keyword sql c' h => ?_⟩
  · rw [(unique tree).mp htree, Node.holds_clauseTree truth valid]
  · exact writeFrom_conditions ne h

/-- A condition and a pair of alternatives inside two groups, the outer one around the inner. -/
def wrappedAlternatives : List Node :=
  [.leaf "a" .eq (.one (.int 1)) .or,
    .group [.group [.leaf "b" .eq (.one (.int 2)) .or, .raw "c > d" none .or] .or] .and]

/-- The outer group goes and the parentheses of the inner one stay, so the first condition still
bounds both alternatives. -/
theorem conditions_keep_meaning_of_wrapped :
    wrappedAlternatives ≠ [] ∧ Node.ValidAll wrappedAlternatives ∧
      (∀ tree, Grammar.IsLevel (Node.clauseTokens wrappedAlternatives) tree ↔
        tree = [.leaf "a" .eq (.one (.int 1)) .and,
          .group [.leaf "b" .eq (.one (.int 2)) .and, .raw "c > d" none .or] .and]) ∧
      (∀ tree, Grammar.IsLevel (Node.clauseTokens wrappedAlternatives) tree → ∀ truth,
        Node.clauseHolds truth tree = (truth (.leaf "a" .eq (.one (.int 1))) &&
          (truth (.leaf "b" .eq (.one (.int 2))) || truth (.fragment "c > d" none)))) ∧
      (compile {} { operation := some .delete, table := some "t"
                    predicates := wrappedAlternatives }).toOption.map (·.sql) =
        some "DELETE FROM t WHERE a = ? AND (b = ? OR c > d)" := by
  have ne : wrappedAlternatives ≠ [] := List.cons_ne_nil _ _
  have valid : Node.ValidAll wrappedAlternatives := by
    simp [wrappedAlternatives, Node.ValidAll, Node.Valid]
  obtain ⟨unique, truths, -⟩ := conditions_keep_meaning ne valid
  refine ⟨ne, valid, unique, fun tree htree truth => ?_, by decide +kernel⟩
  rw [truths tree htree truth]
  simp [wrappedAlternatives, Node.clauseHolds, Node.units, Node.holds, Connector.holds,
    Connector.runs, Node.connector]

end Compiler
end FluentSql
