import FluentSql.Proofs.AskedNodes
import FluentSql.Proofs.BuiltStatements
import FluentSql.Proofs.NameCharacters

/-!
Statements whose names passed their check. The columns of joins, conditions, groupings and orderings
are checked on their way in, through calls and through plain data alike. The columns of values are
checked by the terminal calls that take them and by nothing else. Where no call takes a raw text,
there is none in the statement.
-/

namespace FluentSql

section

variable (raws : Prop)

/-- Both sides are accepted names; a raw condition has to be admitted. -/
def JoinCondition.Vetted : JoinCondition → Prop
  | .columns left _ right => Identifier.Accepted left ∧ Identifier.Accepted right
  | .text _ => raws

def Source.Vetted : Source → Prop
  | .column name => Identifier.Accepted name
  | .raw _ => raws

/-- All names in the clauses are accepted, and raw texts stand there only if they are admitted. -/
structure Statement.Vetted (s : Statement) : Prop where
  joins : ∀ j ∈ s.joins, j.condition.Vetted raws
  predicates : ∀ node ∈ s.predicates, node.Asked raws
  having : ∀ node ∈ s.having, node.Asked raws
  grouping : ∀ e ∈ s.grouping, e.source.Vetted raws
  ordering : ∀ e ∈ s.ordering, e.source.Vetted raws

end

/-- The call takes a text that is written as it is, or runs a callback that does. -/
def Call.takesRaw : Call → Bool
  | .join _ _ _ operator second => operator.isNone && second.isNone
  | .condition name args => Condition.callAsksRaw name args
  | .having _ first _ _ => Condition.asksRaw first
  | .groupByRaw .. | .havingRaw .. | .orderByRaw .. | .rawSql .. => true
  | _ => false

theorem forall_mem_concat {α : Type} {P : α → Prop} {xs : List α} {a : α} (h : ∀ x ∈ xs, P x)
    (ha : P a) : ∀ x ∈ xs ++ [a], P x :=
  List.forall_mem_append.mpr ⟨h, List.forall_mem_singleton.mpr ha⟩

section

variable {raws : Prop}

namespace Join

theorem checkSide_accepted {role : String} {v : Value} {side : Option String}
    (h : checkSide role v = .ok side) : ∀ name ∈ side, Identifier.Accepted name := by
  intro name hname
  simp only [checkSide] at h
  split at h
  · cases h
    cases hname
  · obtain ⟨checked, hchecked, h⟩ := ok_bind_iff.mp h
    cases h
    cases hname
    exact Identifier.check_accepted hchecked

theorem ofParts_vetted {kind : JoinKind} {table : String} {text left right : Option String}
    {operator : Option Operator} {j : Join} (admitted : text.isSome = true → raws)
    (hleft : ∀ name ∈ left, Identifier.Accepted name)
    (hright : ∀ name ∈ right, Identifier.Accepted name)
    (h : ofParts kind table text left operator right = .ok j) : j.condition.Vetted raws := by
  simp only [ofParts] at h
  split at h
  · next form =>
      cases h
      simp only [condition?] at form
      split at form
      · cases form
        exact admitted rfl
      · cases form
        exact ⟨hleft _ rfl, hright _ rfl⟩
      · cases form
  · cases h

theorem joinOf_vetted {kind : JoinKind} {table first operator second : Value} {j : Join}
    (admitted : (operator.isNone && second.isNone) = true → raws)
    (h : Call.joinOf kind table first operator second = .ok j) : j.condition.Vetted raws := by
  have nothing : ∀ name ∈ (none : Option String), Identifier.Accepted name := nofun
  simp only [Call.joinOf] at h
  split at h
  · next absent absent' =>
      obtain ⟨_, -, h⟩ := ok_bind_iff.mp h
      obtain ⟨_, -, h⟩ := ok_bind_iff.mp h
      exact ofParts_vetted (fun _ => admitted (by rw [absent, absent']; rfl)) nothing nothing h
  · obtain ⟨_, -, h⟩ := ok_bind_iff.mp h
    obtain ⟨left, hleft, h⟩ := ok_bind_iff.mp h
    obtain ⟨_, -, h⟩ := ok_bind_iff.mp h
    obtain ⟨right, hright, h⟩ := ok_bind_iff.mp h
    exact ofParts_vetted (fun present => by cases present) (checkSide_accepted hleft)
      (checkSide_accepted hright) h
  · cases h

theorem side_of_field {data : List (String × Value)} {role : String} {side : Option String}
    (h : checkField data role (.ok none) (fun v => .ofExcept (checkSide role v)) = .ok side) :
    ∀ name ∈ side, Identifier.Accepted name := by
  refine checkField_holds (P := fun side => ∀ name ∈ side, Identifier.Accepted name) ?_
    (fun v side checked => ?_) h
  · exact nofun
  · exact checkSide_accepted (Checked.ofExcept_ok.mp checked)

theorem check_vetted (admitted : raws) {v : Value} {j : Join} (h : check v = .ok j) :
    j.condition.Vetted raws := by
  cases v with
  | map entries =>
      obtain ⟨_, _, _, _, _, _, parts, formed⟩ := ofFields_ok.mp h
      exact ofParts_vetted (fun _ => admitted) (side_of_field parts.left)
        (side_of_field parts.right) formed
  | _ => cases h

end Join

namespace Entry

variable {data : List (String × Value)} {clause : String} {column raw : Option String}
  {params : Option FragmentParams}

theorem ofParts_vetted {entry : String} {e : Entry} (admitted : raw.isSome = true → raws)
    (named : ∀ name ∈ column, Identifier.Accepted name)
    (h : ofParts entry column raw params = .ok e) : e.source.Vetted raws := by
  simp only [ofParts] at h
  split at h
  · split at h
    · cases h
    · cases h
      exact named _ rfl
  · cases h
    exact admitted rfl
  · cases h

theorem checkColumn_accepted {v : Value} (h : checkColumn v = .ok column) :
    ∀ name ∈ column, Identifier.Accepted name := by
  have side : checkColumn v = Join.checkSide "column" v := by
    cases v <;> rfl
  exact Join.checkSide_accepted (side ▸ h)

theorem Parts.named (parts : Parts clause data column raw params) :
    ∀ name ∈ column, Identifier.Accepted name := by
  refine checkField_holds (P := fun column => ∀ name ∈ column, Identifier.Accepted name) ?_
    (fun v column checked => ?_) parts.column
  · exact nofun
  · exact checkColumn_accepted (Checked.ofExcept_ok.mp checked)

theorem Parts.vetted {entry : String} {e : Entry} (parts : Parts clause data column raw params)
    (admitted : (Fields.get? "raw" data).isSome = true → raws)
    (formed : ofParts entry column raw params = .ok e) : e.source.Vetted raws := by
  refine ofParts_vetted (fun present => admitted ?_) parts.named formed
  obtain ⟨v, found, -⟩ | ⟨-, absent⟩ := checkField_ok.mp parts.raw
  · rw [found]
    rfl
  · cases absent
    cases present

end Entry

namespace GroupEntry

variable {e : Entry}

theorem ofFields_vetted {data : List (String × Value)}
    (admitted : (Fields.get? "raw" data).isSome = true → raws) (h : ofFields data = .ok e) :
    e.source.Vetted raws := by
  obtain ⟨_, _, _, parts, formed⟩ := ofFields_ok.mp h
  exact parts.vetted admitted formed

theorem ofColumn_vetted {column : Value} (h : ofColumn column = .ok e) :
    e.source.Vetted raws := by
  obtain ⟨_, named, h⟩ := ok_bind_iff.mp h
  exact Entry.ofParts_vetted (fun present => by cases present) (Entry.checkColumn_accepted named) h

theorem ofRaw_vetted (admitted : raws) {sql params : Value} (h : ofRaw sql params = .ok e) :
    e.source.Vetted raws :=
  ofFields_vetted (fun _ => admitted) (Checked.toExcept_ok.mp h)

theorem check_vetted (admitted : raws) {v : Value} (h : check v = .ok e) :
    e.source.Vetted raws := by
  cases v with
  | map entries => exact ofFields_vetted (fun _ => admitted) h
  | _ => cases h

theorem groupingOf_vetted (columns : List Value) :
    ∀ e ∈ (Call.groupingOf columns).1, e.source.Vetted raws := by
  induction columns with
  | nil => exact List.forall_mem_nil _
  | cons column rest ih =>
      simp only [Call.groupingOf]
      split
      · exact List.forall_mem_nil _
      · next read => exact List.forall_mem_cons.mpr ⟨ofColumn_vetted read, ih⟩

end GroupEntry

namespace OrderEntry

variable {e : OrderEntry}

theorem ofFields_vetted {data : List (String × Value)}
    (admitted : (Fields.get? "raw" data).isSome = true → raws) (h : ofFields data = .ok e) :
    e.source.Vetted raws := by
  obtain ⟨_, _, _, parts, -, formed⟩ := ofFields_ok.mp h
  exact parts.vetted admitted formed

theorem ofColumn_vetted {column direction : Value} (h : ofColumn column direction = .ok e) :
    e.source.Vetted raws := by
  refine ofFields_vetted (fun given => ?_) (Checked.toExcept_ok.mp h)
  simp [Fields.get?] at given

theorem ofRaw_vetted (admitted : raws) {sql params : Value} (h : ofRaw sql params = .ok e) :
    e.source.Vetted raws :=
  ofFields_vetted (fun _ => admitted) (Checked.toExcept_ok.mp h)

theorem check_vetted (admitted : raws) {v : Value} (h : check v = .ok e) :
    e.source.Vetted raws := by
  cases v with
  | map entries => exact ofFields_vetted (fun _ => admitted) h
  | _ => cases h

theorem orderingOf_vetted {field direction : Value} {entries : List OrderEntry}
    (h : Call.orderingOf field direction = .ok entries) :
    ∀ e ∈ entries, e.source.Vetted raws := by
  simp only [Call.orderingOf] at h
  split at h
  · cases h
  · exact forall_of_mapM (fun _ _ => ofColumn_vetted) h
  · obtain ⟨e, read, h⟩ := ok_bind_iff.mp h
    cases h
    exact List.forall_mem_singleton.mpr (ofColumn_vetted read)

end OrderEntry

namespace Statement

variable {s s' : Statement} {c : Call}

theorem Vetted.new : Vetted raws {} :=
  ⟨nofun, nofun, nofun, nofun, nofun⟩

theorem Vetted.accepted (h : s.Vetted raws) (admitted : c.takesRaw = true → raws)
    (accepted : c.Accepted s s') : s'.Vetted raws := by
  cases accepted with
  | table | select | distinct | limit | offset | paginate | rawSql | unconditional =>
      exact { h with }
  | join read =>
      have added := Join.joinOf_vetted admitted read
      exact { h with joins := forall_mem_concat h.joins added }
  | @condition name args _ read =>
      have added := Condition.ofCall_asked name args admitted read
      exact { h with predicates := forall_mem_concat h.predicates added }
  | @having connector first second third _ read =>
      have added := Condition.resolve_asked first second third connector admitted read
      exact { h with having := forall_mem_concat h.having added }
  | havingRaw read =>
      have added := Node.ofFragment_asked (admitted rfl) read
      exact { h with having := forall_mem_concat h.having added }
  | @groupBy columns entries given read =>
      have added : ∀ e ∈ (Call.groupingOf (Call.groupingItems columns)).1, e.source.Vetted raws :=
        GroupEntry.groupingOf_vetted _
      rw [read] at added
      exact { h with grouping := List.forall_mem_append.mpr ⟨h.grouping, added⟩ }
  | groupByRaw read =>
      have added := GroupEntry.ofRaw_vetted (admitted rfl) read
      exact { h with grouping := forall_mem_concat h.grouping added }
  | @orderBy _ _ entries read =>
      have added : ∀ e ∈ entries, e.source.Vetted raws := OrderEntry.orderingOf_vetted read
      exact { h with ordering := List.forall_mem_append.mpr ⟨h.ordering, added⟩ }
  | orderByRaw read =>
      have added := OrderEntry.ofRaw_vetted (admitted rfl) read
      exact { h with ordering := forall_mem_concat h.ordering added }

theorem Vetted.residue (h : s.Vetted raws) (c : Call) : (c.residue s).Vetted raws := by
  cases c with
  | select columns => exact { h with }
  | groupBy columns =>
      have added : ∀ e ∈ (Call.groupingOf (Call.groupingItems columns)).1, e.source.Vetted raws :=
        GroupEntry.groupingOf_vetted _
      exact { h with grouping := List.forall_mem_append.mpr ⟨h.grouping, added⟩ }
  | rawSql sql params =>
      rw [Call.residue]
      split
      · exact { h with }
      · exact h
  | _ => exact h

theorem Vetted.apply (h : s.Vetted raws) (admitted : c.takesRaw = true → raws) :
    (c.apply s).1.Vetted raws := by
  obtain accepted | left := c.apply_cases s
  · exact h.accepted admitted accepted
  · rw [left]
    exact h.residue c

theorem Vetted.finish (h : s.Vetted raws) (k : Compiler) (t : Terminal) :
    (t.finish k s).1.Vetted raws := by
  obtain ⟨_, _, _, left, -⟩ := t.finish_frame k s
  rw [left]
  exact { h with }

theorem Vetted.previewed (h : s.Vetted raws) : (Builder.previewed s).Vetted raws := by
  rw [Builder.previewed]
  split
  · exact h
  · exact { h with }

/-- Plain data that pass the checks give a statement whose clauses hold accepted names only. -/
theorem vetted_of_fields (admitted : raws) {data : List (String × Value)}
    (h : ofFields data = .ok s) : s.Vetted raws := by
  have nodes {name : String} {nodes : List Node}
      (h : checkField data name (.ok []) Node.checkList = .ok nodes) :
      ∀ node ∈ nodes, node.Asked raws :=
    checkField_holds (P := fun nodes => ∀ node ∈ nodes, node.Asked raws) (List.forall_mem_nil _)
      (fun v _ => Node.checkList_asked admitted v) h
  have read := ofFields_ok.mp h
  exact {
    joins := items_hold (fun _ _ => Join.check_vetted admitted) read.joins
    predicates := nodes read.predicates
    having := nodes read.having
    grouping := items_hold (fun _ _ => GroupEntry.check_vetted admitted) read.grouping
    ordering := items_hold (fun _ _ => OrderEntry.check_vetted admitted) read.ordering }

end Statement

end

theorem Terminal.columnValues_accepted {operation : Operation} {v : Value}
    {values : List (String × Value)} (h : columnValues operation v = .ok values) :
    ∀ name ∈ Fields.keys values, Identifier.Accepted name := by
  simp only [columnValues] at h
  split at h
  · obtain ⟨pairs, hpairs, h⟩ := ok_bind_iff.mp h
    cases h
    have checked : ∀ pair ∈ pairs, Identifier.Accepted pair.1 := by
      refine forall_of_mapM (fun entry pair hpair => ?_) hpairs
      obtain ⟨name, hname, hpair⟩ := ok_bind_iff.mp hpair
      cases hpair
      exact Identifier.check_accepted hname
    intro name hname
    obtain known | given := Fields.mem_keys_insertAll name hname
    · cases known
    · obtain ⟨pair, hpair, rfl⟩ := List.mem_map.mp given
      exact checked pair hpair
  · cases h

namespace Statement

variable {s : Statement}

theorem values_of_accepted {s' : Statement} {c : Call} (h : c.Accepted s s') :
    s'.values = s.values := by
  cases h <;> rfl

theorem apply_values (s : Statement) (c : Call) : (c.apply s).1.values = s.values := by
  obtain accepted | left := c.apply_cases s
  · exact values_of_accepted accepted
  · rw [left]
    cases c with
    | rawSql sql params =>
        rw [Call.residue]
        split <;> rfl
    | _ => rfl

theorem finish_values (h : ∀ name ∈ Fields.keys s.values, Identifier.Accepted name)
    (k : Compiler) (t : Terminal) :
    ∀ name ∈ Fields.keys (t.finish k s).1.values, Identifier.Accepted name := by
  obtain ⟨_, values, _, left, -, -, rfl | ⟨operation, given, read⟩⟩ := t.finish_frame k s
  · rw [left]
    exact h
  · rw [left]
    exact Terminal.columnValues_accepted read

namespace Built

variable {allowed : Call → Prop}

theorem vetted {raws : Prop} (built : s.Built allowed)
    (admitted : ∀ c, allowed c → c.takesRaw = true → raws) : s.Vetted raws := by
  induction built with
  | new => exact .new
  | call _ hc ih => exact ih.apply (admitted _ hc)
  | finish _ k t ih => exact ih.finish k t
  | preview _ ih => exact ih.previewed

theorem values (built : s.Built allowed) :
    ∀ name ∈ Fields.keys s.values, Identifier.Accepted name := by
  induction built with
  | new => exact List.forall_mem_nil _
  | @call s _ c _ ih =>
      rw [apply_values]
      exact ih
  | finish _ k t ih => exact finish_values ih k t
  | preview _ ih =>
      rw [Builder.previewed]
      split <;> exact ih

end Built
end Statement
end FluentSql
