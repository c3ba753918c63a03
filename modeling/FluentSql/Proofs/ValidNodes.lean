import FluentSql.Proofs.AskedNodes

/-!
Nodes that pass validation. Plain data and calls give leaves, fragments and groups that hold at
least one node, at any depth.
-/

namespace FluentSql

namespace Node

mutual

/-- Nodes as validation leaves them: leaves, fragments, and groups that are not empty. -/
def Valid : Node → Prop
  | .leaf .. | .raw .. => True
  | .group items _ => items ≠ [] ∧ ValidAll items
  | .stray _ => False

def ValidAll : List Node → Prop
  | [] => True
  | node :: rest => Valid node ∧ ValidAll rest

end

theorem valid_withConnector {node : Node} (valid : node.Valid) (c : Connector) :
    (node.withConnector c).Valid := by
  cases node <;> exact valid

theorem validAll_iff {nodes : List Node} : ValidAll nodes ↔ ∀ node ∈ nodes, node.Valid := by
  induction nodes with
  | nil => simp [ValidAll]
  | cons node rest ih => rw [ValidAll, ih, List.forall_mem_cons]

theorem Asked.valid {raws : Prop} {node : Node} (asked : node.Asked raws) : node.Valid := by
  induction asked with
  | leaf | raw => trivial
  | group given _ ih => exact ⟨given, validAll_iff.mpr ih⟩

/-- Plain data that pass the checks give a valid node, at any depth. -/
theorem check_valid {v : Value} {node : Node} (h : check v = .ok node) : node.Valid :=
  (check_asked trivial v h).valid

/-- What a call asks for is valid, whichever call it is. -/
theorem ofCall_valid {name : String} {args : List Value} {node : Node}
    (h : Condition.ofCall name args = .ok node) : node.Valid := by
  have asked : node.Asked True := Condition.ofCall_asked name args (fun _ => trivial) h
  exact asked.valid

end Node
end FluentSql
