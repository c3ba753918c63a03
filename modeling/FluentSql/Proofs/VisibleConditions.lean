import FluentSql.Proofs.AskedNodes
import FluentSql.Proofs.UnmarkedNames
import FluentSql.Proofs.Writing

/-!
Conditions are never written as nothing. A checked name and a checked fragment are not empty, so a
node that a call asked for has a token whose text is not empty, and so has every list of such nodes
that is not empty itself.
-/

namespace FluentSql

/-- The text of a token is not empty, whatever its placeholders are. -/
def Token.IsVisible : Token → Prop
  | .atom (.leaf field _ _) => field ≠ ""
  | .atom (.fragment sql _) => sql ≠ ""
  | .atom (.stray _) => False
  | .connector _ | .opening | .closing => True

theorem Identifier.check_ne_empty {role name : String} {v : Value}
    (h : Identifier.check role v = .ok name) : name ≠ "" := by
  obtain ⟨s, -, -, given, -, -⟩ := check_ok.mp h
  rintro rfl
  cases given

theorem Node.checkFragment_ne_empty {sql : String} {v : Value}
    (h : Node.checkFragment v = .ok sql) : sql ≠ "" := by
  simp only [Node.checkFragment] at h
  split at h
  · split at h
    · cases h
    · next given =>
        cases h
        exact fun none => given (by rw [none]; rfl)
  · cases h

namespace Node

/-- A list of items is written with all tokens of its first item. -/
theorem mem_sequence {t : Token} {isolated : Bool} {node : Node} {rest : List Node}
    (h : t ∈ tokens isolated node) : t ∈ sequence isolated (node :: rest) := by
  rw [sequence]
  exact List.mem_append_left _ h

/-- A node that was asked for shows itself, with or without siblings. -/
theorem Asked.visible {raws : Prop} {node : Node} (asked : node.Asked raws) (isolated : Bool) :
    ∃ t ∈ tokens isolated node, t.IsVisible := by
  induction asked generalizing isolated with
  | leaf named => exact ⟨_, List.mem_singleton_self _, Identifier.check_ne_empty named⟩
  | raw _ read => exact ⟨_, List.mem_singleton_self _, checkFragment_ne_empty read⟩
  | @group items c given _ ih =>
      obtain ⟨first, rest, rfl⟩ := List.exists_cons_of_ne_nil given
      -- a group of one is written as its only item, at the level of the group
      cases rest with
      | nil =>
          rw [tokens]
          exact ih first (List.mem_singleton_self _) isolated
      | cons second rest =>
          obtain ⟨t, ht, visible⟩ := ih first (List.mem_cons_self ..) true
          refine ⟨t, ?_, visible⟩
          cases isolated with
          | true => exact List.mem_append_left _ (List.mem_cons_of_mem _ (mem_sequence ht))
          | false => exact mem_sequence ht

theorem clauseTokens_visible {nodes : List Node} (given : nodes ≠ [])
    (asked : ∀ node ∈ nodes, node.Asked True) : ∃ t ∈ clauseTokens nodes, t.IsVisible := by
  obtain ⟨node, rest, rfl⟩ := List.exists_cons_of_ne_nil given
  obtain ⟨t, ht, visible⟩ := (asked node (List.mem_cons_self ..)).visible
    (decide (1 < (node :: rest).length))
  exact ⟨t, mem_sequence ht, visible⟩

end Node

namespace Compiler

variable {k : Compiler} {reserved : List String} {c c' : Collector} {sql : String}

theorem intercalate_ne_empty {separator first : String} (given : first ≠ "")
    (rest : List String) : separator.intercalate (first :: rest) ≠ "" := by
  cases rest with
  | nil => rwa [String.intercalate_singleton]
  | cons second rest =>
      rw [String.intercalate_cons_cons]
      simp [given]

theorem quote_ne_empty (dialect name : String) : Dialect.quote dialect name ≠ "" := by
  obtain ⟨first, rest, parts⟩ :=
    List.exists_cons_of_ne_nil (Identifier.splitDots_ne_nil name.toList)
  rw [Dialect.quote, parts, List.map_cons]
  refine intercalate_ne_empty ?_ _
  split
  · decide
  · simp [Dialect.quotePart]

theorem writeName_ne_empty {name : String} (given : name ≠ "") : k.writeName name ≠ "" := by
  rw [writeName]
  split
  · exact quote_ne_empty k.dialect name
  · exact given

theorem written_visible {t : Token} (visible : t.IsVisible)
    (h : k.writeFrom reserved c t.pieces = .ok (sql, c')) : sql ≠ "" := by
  cases t with
  | atom a =>
      cases a with
      | leaf field operator operand =>
          cases (writeFrom_leaf field operator operand).symm.trans h
          simp [writeName_ne_empty visible]
      | fragment text params =>
          obtain ⟨head, tail, c₁, hp, hps, rfl⟩ := writeFrom_cons_ok.mp h
          obtain ⟨c₂, -, hp⟩ := ok_bind_iff.mp hp
          cases hp
          simp [show text ≠ "" from visible]
      | stray v => exact visible.elim
  | connector op | opening | closing =>
      obtain ⟨head, tail, c₁, hp, hps, rfl⟩ := writeFrom_cons_ok.mp h
      cases hp
      simp

/-- Conditions that were asked for have a text. -/
theorem written_conditions_ne_empty {nodes : List Node} (given : nodes ≠ [])
    (asked : ∀ node ∈ nodes, node.Asked True)
    (h : k.writeFrom reserved c ((Node.clauseTokens nodes).flatMap Token.pieces) =
      .ok (sql, c')) : sql ≠ "" := by
  obtain ⟨t, ht, visible⟩ := Node.clauseTokens_visible given asked
  obtain ⟨before, after, around⟩ := List.append_of_mem ht
  rw [around, List.flatMap_append, List.flatMap_cons] at h
  obtain ⟨head, tail, c₁, -, htail, rfl⟩ := writeFrom_append_ok.mp h
  obtain ⟨shown, rest, c₂, hshown, -, rfl⟩ := writeFrom_append_ok.mp htail
  simp [written_visible visible hshown]

end Compiler
end FluentSql
