import FluentSql.Proofs.Layout

/-!
The walk over a statement that gathers the parameters of its fragments. It comes to every fragment
that stands in a layout, at whatever depth of a condition and in whatever clause, so the names that
are reserved are those of all fragments that can be written.
-/

namespace FluentSql

/-- The parameters that stand beside a fragment's text. -/
def Part.params : Part → Option FragmentParams
  | .fragment _ _ params => params
  | _ => none

namespace Entry

/-- The parameters of a raw entry. -/
def rawParams (e : Entry) : Option FragmentParams :=
  match e.source with
  | .raw _ => e.params
  | .column _ => none

theorem params_of_raw {e : Entry} {params : FragmentParams} (h : e.rawParams = some params) :
    e.params = some params := by
  simp only [rawParams] at h
  split at h
  · exact h
  · cases h

end Entry

namespace Node

mutual

theorem params_tokens (isolated : Bool) : ∀ node : Node,
    (node.tokens isolated).filterMap (fun t => t.part.params) = node.fragmentParams
  | .leaf .. | .stray _ => rfl
  | .raw _ none _ | .raw _ (some _) _ => rfl
  | .group [] _ => by cases isolated <;> rfl
  | .group [item] _ => by
      rw [tokens, params_tokens isolated item, fragmentParams, fragmentParamsOf,
        fragmentParamsOf, List.append_nil]
  | .group (first :: second :: rest) _ => by
      have inner : (sequence true (first :: second :: rest)).filterMap (fun t => t.part.params) =
          fragmentParamsOf (first :: second :: rest) := by
        rw [sequence, List.filterMap_append, params_tokens true first,
          params_continued true (second :: rest)]
        rfl
      rw [fragmentParams, ← inner]
      cases isolated with
      | false => rfl
      | true =>
          simp only [tokens, if_true, List.filterMap_append, List.filterMap_cons,
            List.filterMap_nil]
          exact List.append_nil _

theorem params_continued (isolated : Bool) : ∀ nodes : List Node,
    (continued isolated nodes).filterMap (fun t => t.part.params) = fragmentParamsOf nodes
  | [] => rfl
  | node :: rest => by
      rw [continued, List.filterMap_append, List.filterMap_cons_none rfl,
        params_tokens isolated node, params_continued isolated rest, fragmentParamsOf]

end

end Node

namespace Statement

theorem params_plain (ps : List Piece) (parts : List Part) :
    (.plain ps :: parts).filterMap Part.params = parts.filterMap Part.params := rfl

theorem params_conditionParts (keyword : String) (nodes : List Node) :
    (conditionParts keyword nodes).filterMap Part.params = Node.fragmentParamsOf nodes := by
  cases nodes with
  | nil => rfl
  | cons node rest =>
      simp only [conditionParts, List.isEmpty_cons, Bool.false_eq_true, if_false]
      rw [params_plain, List.filterMap_map, Node.clauseTokens, Node.sequence,
        List.filterMap_append]
      simp only [Function.comp_def, Node.params_tokens, Node.params_continued]
      rfl

theorem params_intersperse (parts : List Part) :
    (parts.intersperse comma).filterMap Part.params = parts.filterMap Part.params := by
  induction parts with
  | nil => rfl
  | cons part parts ih =>
      cases parts with
      | nil => rfl
      | cons part' parts =>
          rw [List.intersperse_cons_cons, List.filterMap_cons, List.filterMap_cons_none rfl, ih]
          exact List.filterMap_cons.symm

theorem params_groupEntryPart (e : Entry) : (groupEntryPart e).params = e.rawParams := by
  obtain ⟨source, given⟩ := e
  cases source with
  | raw sql => rfl
  | column name => rfl

theorem params_orderEntryPart (e : OrderEntry) : (orderEntryPart e).params = e.rawParams := by
  obtain ⟨⟨source, given⟩, direction⟩ := e
  cases source with
  | raw sql => rfl
  | column name => rfl

theorem params_groupingParts (grouping : List Entry) :
    (groupingParts grouping).filterMap Part.params = grouping.filterMap Entry.rawParams := by
  simp only [groupingParts]
  split
  · next none =>
      rw [List.isEmpty_iff.mp none]
      rfl
  · rw [params_plain, params_intersperse, List.filterMap_map]
    simp only [Function.comp_def, params_groupEntryPart]

theorem params_orderingParts (ordering : List OrderEntry) :
    (orderingParts ordering).filterMap Part.params = ordering.filterMap (·.rawParams) := by
  simp only [orderingParts]
  split
  · next none =>
      rw [List.isEmpty_iff.mp none]
      rfl
  · rw [params_plain, params_intersperse, List.filterMap_map]
    simp only [Function.comp_def, params_orderEntryPart]

/-- The parameters that a SELECT is written with, in the order of its text. -/
def writtenParams (s : Statement) : List FragmentParams :=
  Node.fragmentParamsOf s.predicates ++ s.grouping.filterMap Entry.rawParams ++
    Node.fragmentParamsOf s.having ++ s.ordering.filterMap (·.rawParams)

theorem params_selectParts (dialect : String) (s : Statement) :
    (s.selectParts dialect).filterMap Part.params = s.writtenParams := by
  simp only [selectParts, List.filterMap_append, params_plain, params_conditionParts,
    params_groupingParts, params_orderingParts]
  exact List.append_nil _

theorem writtenParams_subset (s : Statement) : s.writtenParams ⊆ s.fragmentParams := by
  have entries {α : Type} (entry : α → Entry) (es : List α) :
      es.filterMap (fun e => (entry e).rawParams) ⊆ es.filterMap (fun e => (entry e).params) := by
    intro params hparams
    obtain ⟨e, he, given⟩ := List.mem_filterMap.mp hparams
    exact List.mem_filterMap.mpr ⟨e, he, Entry.params_of_raw given⟩
  intro params hparams
  simp only [writtenParams, List.mem_append] at hparams
  simp only [fragmentParams, List.mem_append]
  obtain ((inPredicates | inGrouping) | inHaving) | inOrdering := hparams
  · exact .inl (.inl (.inl inPredicates))
  · exact .inl (.inr (entries id s.grouping inGrouping))
  · exact .inl (.inl (.inr inHaving))
  · exact .inr (entries OrderEntry.toEntry s.ordering inOrdering)

theorem params_selectParts_subset (dialect : String) (s : Statement) :
    (s.selectParts dialect).filterMap Part.params ⊆ s.fragmentParams := by
  rw [params_selectParts]
  exact s.writtenParams_subset

/-- Values bring no parameters of their own. -/
theorem params_values {part : String × Value → Part} (none : ∀ entry, (part entry).params = none)
    (values : List (String × Value)) : (values.map part).filterMap Part.params = [] := by
  rw [List.filterMap_map, List.filterMap_eq_nil_iff]
  exact fun entry _ => none entry

/-- The walk that reserves names comes to every fragment of the layout. -/
theorem params_parts_subset (k : Compiler) (s : Statement) (operation : Operation) :
    (s.parts k operation).filterMap Part.params ⊆ s.fragmentParams := by
  intro params hparams
  have conditions (h : params ∈ (conditionParts "WHERE" s.predicates).filterMap Part.params) :
      params ∈ s.fragmentParams := by
    rw [params_conditionParts] at h
    exact List.mem_append_left _ (List.mem_append_left _ (List.mem_append_left _ h))
  cases operation with
  | select => exact params_selectParts_subset k.dialect s hparams
  | insert =>
      simp only [parts, insertParts, List.filterMap_append, params_plain,
        params_intersperse] at hparams
      rw [params_values fun _ => rfl] at hparams
      cases hparams
  | update =>
      simp only [parts, updateParts, List.filterMap_append, params_plain,
        params_intersperse] at hparams
      rw [params_values fun _ => rfl] at hparams
      exact conditions hparams
  | delete => exact conditions hparams
  | raw => cases hparams

theorem params_countParts_subset (k : Compiler) (s : Statement) :
    (s.countParts k).filterMap Part.params ⊆ s.fragmentParams := by
  have unordered : ({ s with ordering := [] } : Statement).fragmentParams ⊆ s.fragmentParams := by
    simp only [fragmentParams, List.filterMap_nil, List.append_nil]
    exact List.subset_append_left _ _
  have inner : (if s.isPaginated then s else { s with ordering := [] }).fragmentParams ⊆
      s.fragmentParams := by
    split
    · exact List.Subset.refl _
    · exact unordered
  intro params hparams
  simp only [countParts] at hparams
  split at hparams
  · have wrapped := List.mem_append.mp (List.filterMap_append ▸ hparams)
    obtain within | outside := wrapped
    · exact inner (params_selectParts_subset k.dialect _ within)
    · cases outside
  · exact unordered (params_selectParts_subset k.dialect _ hparams)

end Statement

end FluentSql
