import FluentSql.Proofs.ConditionTree

/-!
Conditions in a group of their own. Conditions that stand side by side and are joined by AND may
become one group in their place, at the top of a clause or at any depth. The truth value stays as it
was, and so do the parameters of fragments. The tokens gain a pair of parentheses around these
conditions and nothing else; not even that if there is one of them, or if no others stand beside
them.
-/

namespace FluentSql

/-- `ys` is `xs` with one more pair of parentheses around `within`, or `xs` itself if `bare`. -/
def Parenthesized {α : Type} (opening closing : α) (within : List α) (bare : Prop)
    (xs ys : List α) : Prop :=
  (bare ∧ ys = xs) ∨
    (¬ bare ∧ ∃ before after, xs = before ++ (within ++ after) ∧
      ys = before ++ opening :: (within ++ closing :: after))

namespace Parenthesized

variable {α β : Type} {opening closing : α} {within xs ys : List α} {bare : Prop}

theorem around (h : Parenthesized opening closing within bare xs ys) (front back : List α) :
    Parenthesized opening closing within bare (front ++ (xs ++ back)) (front ++ (ys ++ back)) := by
  obtain ⟨alike, rfl⟩ | ⟨other, before, after, rfl, rfl⟩ := h
  · exact .inl ⟨alike, rfl⟩
  · exact .inr ⟨other, front ++ before, after ++ back, by simp, by simp⟩

theorem flatMap {f : α → List β} {left right : β} (hopening : f opening = [left])
    (hclosing : f closing = [right]) (h : Parenthesized opening closing within bare xs ys) :
    Parenthesized left right (within.flatMap f) bare (xs.flatMap f) (ys.flatMap f) := by
  obtain ⟨alike, rfl⟩ | ⟨other, before, after, rfl, rfl⟩ := h
  · exact .inl ⟨alike, rfl⟩
  · exact .inr ⟨other, before.flatMap f, after.flatMap f, by simp, by simp [hopening, hclosing]⟩

end Parenthesized

namespace Connector

theorem exists_run (rest : List (Connector × Bool)) :
    ∃ run later, ∀ c a, runs ((c, a) :: rest) = (a :: run) :: later := by
  induction rest with
  | nil => exact ⟨[], [], fun _ _ => rfl⟩
  | cons unit rest ih =>
      obtain ⟨d, b⟩ := unit
      obtain ⟨run, later, h⟩ := ih
      cases d with
      | and => exact ⟨b :: run, later, fun c a => by simp [runs, h]⟩
      | or => exact ⟨[], (b :: run) :: later, fun c a => by simp [runs, h]⟩

theorem holds_or (c : Connector) (a b : Bool) (rest : List (Connector × Bool)) :
    holds ((c, a) :: (.or, b) :: rest) = (a || holds ((.or, b) :: rest)) := by
  simp [holds, runs]

theorem holds_and (c : Connector) (a b : Bool) (rest : List (Connector × Bool)) :
    holds ((c, a) :: (.and, b) :: rest) = holds ((c, a && b) :: rest) := by
  obtain ⟨run, later, h⟩ := exists_run rest
  simp [holds, runs, h, Bool.and_assoc]

theorem holds_joined (c : Connector) (a : Bool) {level : List (Connector × Bool)}
    (joined : ∀ unit ∈ level, unit.1 = .and) (rest : List (Connector × Bool)) :
    holds ((c, a) :: (level ++ rest)) = holds ((c, a && level.all (·.2)) :: rest) := by
  induction level generalizing a with
  | nil => rw [List.nil_append, List.all_nil, Bool.and_true]
  | cons unit level ih =>
      obtain ⟨d, b⟩ := unit
      obtain ⟨rfl, others⟩ := List.forall_mem_cons.mp joined
      rw [List.cons_append, holds_and, ih _ others, List.all_cons, Bool.and_assoc]

/-- What comes before levels does not tell them apart if no unit in front of them does. -/
theorem holds_after {xs ys : List (Connector × Bool)}
    (alike : ∀ c a, holds ((c, a) :: xs) = holds ((c, a) :: ys))
    (before : List (Connector × Bool)) (c : Connector) (a : Bool) :
    holds ((c, a) :: (before ++ xs)) = holds ((c, a) :: (before ++ ys)) := by
  induction before generalizing c a with
  | nil => exact alike c a
  | cons unit before ih =>
      obtain ⟨_ | _, b⟩ := unit
      · rw [List.cons_append, holds_and, ih, List.cons_append, holds_and]
      · rw [List.cons_append, holds_or, ih, List.cons_append, holds_or]

theorem holds_level {level : List (Connector × Bool)} (given : level ≠ [])
    (joined : ∀ unit ∈ level, unit.1 = .and) : holds level = level.all (·.2) := by
  obtain ⟨⟨c, a⟩, rest, rfl⟩ := List.exists_cons_of_ne_nil given
  have others := (List.forall_mem_cons.mp joined).2
  have whole := holds_joined c a others []
  rw [List.append_nil, Node.holds_single] at whole
  exact whole

/-- Units joined by AND may become one unit in their place, whatever is around them. -/
theorem holds_grouped {level : List (Connector × Bool)} (given : level ≠ [])
    (joined : ∀ unit ∈ level, unit.1 = .and) (before after : List (Connector × Bool)) :
    holds (before ++ (.and, holds level) :: after) = holds (before ++ (level ++ after)) := by
  rw [holds_level given joined]
  -- the first connector of a whole level has nothing to join, so it needs a case of its own
  cases before with
  | nil =>
      obtain ⟨⟨c, a⟩, rest, rfl⟩ := List.exists_cons_of_ne_nil given
      obtain ⟨rfl, others⟩ := List.forall_mem_cons.mp joined
      exact (holds_joined .and a others after).symm
  | cons unit before =>
      refine holds_after (fun c a => ?_) before unit.1 unit.2
      rw [holds_and, holds_joined c a joined]

end Connector

namespace Node

/-- A list of nodes in which `items`, side by side, become a group, at the top or at any depth.
`alone` says whether they had their level to themselves. -/
inductive Regrouped (items : List Node) (alone : Prop) : List Node → List Node → Prop
  | here {before after : List Node} (h : alone ↔ before = [] ∧ after = []) :
      Regrouped items alone (before ++ (items ++ after)) (before ++ .group items .and :: after)
  | inside (before after : List Node) (c : Connector) {inner inner' : List Node}
      (h : Regrouped items alone inner inner') :
      Regrouped items alone (before ++ .group inner c :: after) (before ++ .group inner' c :: after)

variable {items nodes nodes' : List Node} {alone : Prop}

theorem units_eq_map (truth : Atom → Bool) (nodes : List Node) :
    units truth nodes = nodes.map fun node => (node.connector, holds truth node) := by
  induction nodes with
  | nil => rfl
  | cons node rest ih => rw [units, ih, List.map_cons]

theorem fragmentParamsOf_append (xs ys : List Node) :
    fragmentParamsOf (xs ++ ys) = fragmentParamsOf xs ++ fragmentParamsOf ys := by
  induction xs with
  | nil => rfl
  | cons node xs ih =>
      rw [List.cons_append, fragmentParamsOf, ih, fragmentParamsOf, List.append_assoc]

namespace Regrouped

theorem ne_nil (given : items ≠ []) (h : Regrouped items alone nodes nodes') :
    nodes ≠ [] ∧ nodes' ≠ [] := by
  cases h with
  | here => simp [given]
  | inside => simp

theorem fragmentParamsOf_eq (h : Regrouped items alone nodes nodes') :
    fragmentParamsOf nodes' = fragmentParamsOf nodes := by
  induction h with
  | here => simp only [fragmentParamsOf_append, fragmentParamsOf, fragmentParams]
  | inside before after c _ ih =>
      simp only [fragmentParamsOf_append, fragmentParamsOf, fragmentParams, ih]

theorem clauseHolds_eq (given : items ≠ []) (joined : ∀ item ∈ items, item.connector = .and)
    (h : Regrouped items alone nodes nodes') (truth : Atom → Bool) :
    clauseHolds truth nodes' = clauseHolds truth nodes := by
  induction h with
  | @here before after =>
      have level : units truth items ≠ [] := by
        rwa [units_eq_map, ne_eq, List.map_eq_nil_iff]
      have all : ∀ unit ∈ units truth items, unit.1 = .and := by
        rw [units_eq_map]
        exact List.forall_mem_map.mpr joined
      have grouped := Connector.holds_grouped level all (units truth before) (units truth after)
      simp only [clauseHolds, units_eq_map, List.map_append, List.map_cons, holds] at grouped ⊢
      exact grouped
  | inside before after c _ ih =>
      simp only [clauseHolds, units_eq_map, List.map_append, List.map_cons, holds] at ih ⊢
      rw [ih]
      rfl

end Regrouped

theorem continued_append (isolated : Bool) (xs ys : List Node) :
    continued isolated (xs ++ ys) = continued isolated xs ++ continued isolated ys := by
  induction xs with
  | nil => rfl
  | cons node xs ih =>
      simp only [List.cons_append, continued, ih, List.append_assoc]

theorem sequence_single (isolated : Bool) (node : Node) :
    sequence isolated [node] = tokens isolated node := List.append_nil _

/-- The connector of a group is not among its tokens. -/
theorem tokens_connector (isolated : Bool) (items : List Node) (c d : Connector) :
    tokens isolated (.group items c) = tokens isolated (.group items d) := by
  match items with
  | [] | [_] | _ :: _ :: _ => rfl

theorem tokens_several {items : List Node} (several : 1 < items.length) (isolated : Bool)
    (c : Connector) : tokens isolated (.group items c) =
      (if isolated then [.opening] else []) ++
        (sequence true items ++ if isolated then [.closing] else []) := by
  match items, several with
  | first :: second :: rest, _ =>
      cases isolated with
      | false => exact (List.append_nil _).symm
      | true => rfl

theorem clauseTokens_eq (nodes : List Node) :
    clauseTokens nodes = tokens false (.group nodes .and) := by
  match nodes with
  | [] => rfl
  | [node] => exact sequence_single false node
  | first :: second :: rest => simp [clauseTokens, tokens]

/-- The tokens of a group whose items stand around some more are the tokens of these, in
surroundings that depend on nothing of them but the connector before the first. -/
theorem exists_surroundings (isolated : Bool) (c d : Connector) {before after : List Node}
    (siblings : ¬ (before = [] ∧ after = [])) :
    ∃ front back, ∀ first rest, first.connector = d →
      tokens isolated (.group (before ++ (first :: rest ++ after)) c) =
        front ++ (sequence true (first :: rest) ++ back) := by
  have split (first : Node) (rest : List Node) :
      sequence true (first :: rest ++ after) =
        sequence true (first :: rest) ++ continued true after := by
    rw [List.cons_append, sequence, continued_append, sequence, List.append_assoc]
  cases before with
  | nil =>
      have behind : after ≠ [] := fun none => siblings ⟨rfl, none⟩
      refine ⟨if isolated then [.opening] else [],
        continued true after ++ if isolated then [.closing] else [], fun first rest _ => ?_⟩
      have several : 1 < (first :: rest ++ after).length := by
        have := List.length_pos_iff.mpr behind
        rw [List.length_append, List.length_cons]
        omega
      rw [List.nil_append, tokens_several several, split, List.append_assoc]
  | cons node before =>
      refine ⟨(if isolated then [.opening] else []) ++
          (sequence true (node :: before) ++ [.connector d]),
        continued true after ++ if isolated then [.closing] else [], ?_⟩
      rintro first rest rfl
      have several : 1 < (node :: before ++ (first :: rest ++ after)).length := by
        rw [List.length_append, List.length_cons, List.length_append, List.length_cons]
        omega
      rw [tokens_several several]
      simp only [List.cons_append, sequence, continued_append, continued, List.append_assoc,
        List.nil_append]

theorem Regrouped.tokens (given : items ≠ []) (joined : ∀ item ∈ items, item.connector = .and)
    (h : Regrouped items alone nodes nodes') (isolated : Bool) (c : Connector) :
    Parenthesized .opening .closing (sequence true items) (items.length = 1 ∨ alone)
      (tokens isolated (.group nodes c)) (tokens isolated (.group nodes' c)) := by
  induction h generalizing isolated c with
  | @here before after h =>
      by_cases siblings : before = [] ∧ after = []
      · obtain ⟨rfl, rfl⟩ := siblings
        refine .inl ⟨.inr (h.mpr ⟨rfl, rfl⟩), ?_⟩
        rw [List.append_nil]
        exact tokens_connector isolated items .and c
      · obtain ⟨front, back, surrounded⟩ := exists_surroundings isolated c .and siblings
        obtain ⟨first, rest, rfl⟩ := List.exists_cons_of_ne_nil given
        have grouped : Node.tokens isolated
            (.group (before ++ .group (first :: rest) .and :: after) c) =
              front ++ (Node.tokens true (.group (first :: rest) .and) ++ back) := by
          rw [← sequence_single true (.group (first :: rest) .and)]
          exact surrounded (.group (first :: rest) .and) [] rfl
        rw [surrounded first rest (joined first List.mem_cons_self), grouped]
        refine Parenthesized.around ?_ front back
        -- a group of one item is written as its item
        cases rest with
        | nil => exact .inl ⟨.inl rfl, (sequence_single true first).symm⟩
        | cons second rest =>
            have bare : ¬ ((first :: second :: rest).length = 1 ∨ alone) := by
              simpa [h] using siblings
            refine .inr ⟨bare, [], [], (List.append_nil _).symm, rfl⟩
  | inside before after d _ ih =>
      by_cases siblings : before = [] ∧ after = []
      · obtain ⟨rfl, rfl⟩ := siblings
        exact ih isolated d
      · obtain ⟨front, back, surrounded⟩ := exists_surroundings isolated c d siblings
        have outer := (ih true d).around front back
        rw [← sequence_single, ← sequence_single, ← surrounded _ [] rfl,
          ← surrounded _ [] rfl] at outer
        exact outer

end Node

end FluentSql
