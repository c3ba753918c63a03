import FluentSql.Proofs.AskedNodes
import FluentSql.Proofs.KeptValues
import FluentSql.Proofs.Projections

/-!
Clauses told again. What passes the checks of a clause has fields of its own, in which nested nodes
are maps with their kinds; it is in a canonical form, and its fields pass the same checks and give
it back. The checks rewrite what they are given (operators, operands, references, directions,
parameters), but never what they gave.
-/

namespace FluentSql

/-- What is made of data is made again of its own fields, and has the property. -/
def IsRetold {α : Type} (make : List (String × Value) → Checked α)
    (fields : α → List (String × Value)) (P : α → Prop) : Prop :=
  ∀ data a, make data = .ok a → make (fields a) = .ok a ∧ P a

mutual

/-- The fields of a node. A node that was never checked has none. -/
def Node.toFields : Node → List (String × Value)
  | .leaf field operator operand connector =>
    [("kind", .text leafKind), ("field", .text field), ("operator", .text operator.text),
      ("value", operand.toValue), ("connector", .text connector.text)]
  | .raw sql params connector =>
    [("kind", .text rawKind), ("sql", .text sql), ("params", FragmentParams.optionToValue params),
      ("connector", .text connector.text)]
  | .group items connector =>
    [("kind", .text groupKind), ("items", .list (toMaps items)),
      ("connector", .text connector.text)]
  | .stray _ => []

/-- Nodes as maps of their fields. -/
def Node.toMaps : List Node → List Value
  | [] => []
  | node :: rest => Fields.toValue (toFields node) :: toMaps rest

end

/-- In upper case, with single spaces between the words and none around them. -/
def Operator.IsNormal (s : String) : Prop :=
  Text.upper s = s ∧ " ".intercalate (Text.words s) = s

/-- A text that is not empty and has no blanks around it. -/
def Text.IsTrimmed (s : String) : Prop := s ≠ "" ∧ trim s = s

/-- The operand has the form that the operator asks for: a tuple that is not empty, or a pair. -/
structure Operand.Suits (operator : Operator) (operand : Operand) : Prop where
  list : operator.takesList = true → ∃ values, values ≠ [] ∧ operand.toValue = .tuple values
  range : operator.takesRange = true → ∃ low high, operand.toValue = .tuple [low, high]

/-- Nothing, a list, or a map whose keys are texts. -/
def Value.IsParams : Value → Prop
  | .none | .list _ => True
  | .map entries => ∀ entry ∈ entries, ∃ name, entry.1 = .text name
  | _ => False

/-- Nodes whose operators, operands, texts and parameters are as the checks leave them, and whose
groups are not empty, at any depth. -/
inductive Node.Canonical : Node → Prop
  | leaf {field : String} {operator : Operator} {operand : Operand} {c : Connector}
      (allowed : operator ∈ Operator.all) (normal : Operator.IsNormal operator.text)
      (suits : operand.Suits operator) : Canonical (.leaf field operator operand c)
  | raw {sql : String} {params : Option FragmentParams} {c : Connector}
      (trimmed : Text.IsTrimmed sql) (container : (FragmentParams.optionToValue params).IsParams) :
      Canonical (.raw sql params c)
  | group {items : List Node} {c : Connector} (given : items ≠ [])
      (each : ∀ item ∈ items, Canonical item) : Canonical (.group items c)

theorem Operator.isNormal (operator : Operator) : IsNormal operator.text := by
  cases operator <;> exact ⟨by decide +kernel, by decide +kernel⟩

theorem Operator.mem_all (operator : Operator) : operator ∈ all := by
  cases operator <;> decide

theorem Operator.check_text (operator : Operator) :
    check all (.text operator.text) = .ok operator := by
  cases operator <;> rfl

theorem Operator.check_comparison {operator : Operator} (h : operator ∈ comparisons) :
    check comparisons (.text operator.text) = .ok operator := by
  cases operator <;> first | rfl | exact absurd h (by decide)

theorem Text.trim_trim (s : String) : trim (trim s) = trim s := by
  simp only [trim, String.toList_ofList, trimChars_trimChars]

/-- What is read off a text that must not be blank is read off its trimmed form. -/
theorem Text.isTrimmed_of_read {α : Type} {s : String} {r : Refusal} {f : String → α} {a : α}
    (h : (if (trim s).isEmpty = true then refuse r else .ok (f (trim s))) = Except.ok a) :
    IsTrimmed (trim s) ∧ a = f (trim s) := by
  split at h
  · cases h
  · next shown =>
      cases h
      exact ⟨⟨fun empty => shown (String.isEmpty_iff.mpr empty), trim_trim s⟩, rfl⟩

theorem Text.IsTrimmed.shown {s : String} (h : IsTrimmed s) : (trim s).isEmpty = false := by
  rw [h.2, Bool.eq_false_iff]
  exact fun empty => h.1 (String.isEmpty_iff.mp empty)

theorem Value.namedEntries_toValue (fields : List (String × Value)) :
    namedEntries (fields.map fun (name, v) => (.text name, v)) = fields := by
  induction fields with
  | nil => rfl
  | cons field rest ih => exact congrArg (field :: ·) ih

/-- A check of maps reads what it gave out of the map of its fields. -/
theorem IsRetold.of_map {α : Type} {make : List (String × Value) → Checked α}
    {fields : α → List (String × Value)} {P : α → Prop} {check : Value → Checked α} {v : Value}
    {a : α} (retold : IsRetold make fields P)
    (reads : ∀ entries, check (.map entries) = make (Value.namedEntries entries))
    (maps : ∃ entries, v = .map entries) (h : check v = .ok a) :
    check (Fields.toValue (fields a)) = .ok a ∧ P a := by
  obtain ⟨entries, rfl⟩ := maps
  rw [reads] at h
  obtain ⟨again, holds⟩ := retold _ _ h
  refine ⟨?_, holds⟩
  rw [Fields.toValue, reads, Value.namedEntries_toValue, again]

theorem Value.mapM_text {read : Value × Value → Option (String × Value)}
    (names : ∀ name v, read (.text name, v) = some (name, v)) (fields : List (String × Value)) :
    (fields.map fun (name, v) => (Value.text name, v)).mapM read = some fields := by
  induction fields with
  | nil => rfl
  | cons field rest ih =>
      rw [List.map_cons, List.mapM_cons, ih, names]
      rfl

theorem Value.asFields_toValue {fields : List (String × Value)}
    (distinct : (Fields.keys fields).Nodup) :
    asFields? (Fields.toValue fields) = some fields := by
  simp only [Fields.toValue, asFields?]
  rw [mapM_text fun _ _ => rfl]
  exact congrArg some (Fields.ofPairs_of_nodup distinct)

theorem Value.asFields_distinct {v : Value} {fields : List (String × Value)}
    (h : v.asFields? = some fields) : (Fields.keys fields).Nodup := by
  cases v with
  | map entries =>
      obtain ⟨pairs, -, h⟩ := Option.bind_eq_some_iff.mp h
      cases h
      exact Fields.keys_ofPairs_nodup pairs
  | _ => cases h

/-- Parameters as a check of a fragment leaves them: no key of a map comes twice. -/
def FragmentParams.IsKept : Option FragmentParams → Prop
  | some (.map entries) => (Fields.keys entries).Nodup
  | _ => True

theorem Node.checkParams_kept {v : Value} {params : Option FragmentParams}
    (h : checkParams v = .ok params) : FragmentParams.IsKept params := by
  simp only [checkParams] at h
  split at h
  · cases h
  · cases h
    trivial
  · cases h
    trivial
  · obtain ⟨fields, read, rfl⟩ := Checked.map_ok.mp h
    exact Value.asFields_distinct (Checked.ofOption_ok.mp read)

theorem Node.checkParams_again {params : Option FragmentParams}
    (kept : FragmentParams.IsKept params) :
    checkParams (FragmentParams.optionToValue params) = .ok params := by
  match params, kept with
  | none, _ | some (.list _), _ => rfl
  | some (.map entries), distinct =>
      have read := Value.asFields_toValue distinct
      simp only [FragmentParams.optionToValue, FragmentParams.toValue]
      simp only [Fields.toValue] at read ⊢
      simp only [checkParams, Params.check, read]
      rfl

theorem FragmentParams.isParams (params : Option FragmentParams) :
    (optionToValue params).IsParams := by
  match params with
  | none | some (.list _) => trivial
  | some (.map entries) =>
      intro entry member
      obtain ⟨field, -, rfl⟩ := List.mem_map.mp member
      exact ⟨field.1, rfl⟩

namespace Operand

variable {operator : Operator} {field v : Value} {operand : Operand}

/-- What an operand is that a value gives to an operator. -/
inductive Held (operator : Operator) (v : Value) : Operand → Prop
  | list {values : List Value} (takes : operator.takesList = true)
      (single : operator.takesRange = false) (items : v.items? = some values)
      (given : values ≠ []) : Held operator v (.list values)
  | range {low high : Value} (several : operator.takesList = false)
      (takes : operator.takesRange = true) (items : v.items? = some [low, high]) :
      Held operator v (.range low high)
  | one (several : operator.takesList = false) (single : operator.takesRange = false) :
      Held operator v (.one v)

theorem check_held (h : check operator field v = .ok operand) : Held operator v operand := by
  simp only [check] at h
  split at h
  · next takes =>
      have single : operator.takesRange = false := by cases operator <;> first | rfl | cases takes
      split at h
      · cases h
      · cases h
      · next values given items =>
          cases h
          exact .list takes single items given
  · next several =>
      rw [Bool.not_eq_true] at several
      split at h
      · next takes =>
          split at h
          · cases h
          · next items =>
              cases h
              exact .range several takes items
          · cases h
      · next single =>
          cases h
          exact .one several (Bool.not_eq_true _ ▸ single)

theorem Held.suits (h : Held operator v operand) : operand.Suits operator := by
  cases h with
  | list _ single _ given =>
      refine ⟨fun _ => ⟨_, given, rfl⟩, fun range => ?_⟩
      rw [single] at range
      cases range
  | range several =>
      refine ⟨fun list => ?_, fun _ => ⟨_, _, rfl⟩⟩
      rw [several] at list
      cases list
  | one several single =>
      refine ⟨fun list => ?_, fun range => ?_⟩
      · rw [several] at list
        cases list
      · rw [single] at range
        cases range

/-- An operand is read again, for whatever column. -/
theorem Held.again (h : Held operator v operand) (field : Value) :
    check operator field operand.toValue = .ok operand := by
  cases h with
  | @list values takes single items given =>
      obtain ⟨first, rest, rfl⟩ := List.exists_cons_of_ne_nil given
      simp only [check, takes, toValue, Value.items?]
      rfl
  | range several takes items =>
      simp only [check, several, takes, toValue, Value.items?]
      rfl
  | one several single =>
      simp only [check, several, single, toValue]
      rfl

end Operand

theorem Connector.ofText_text (c : Connector) : Node.checkConnector (.text c.text) = .ok c := by
  cases c <;> rfl

theorem Node.checkFragment_trimmed {v : Value} {sql : String} (h : checkFragment v = .ok sql) :
    Text.IsTrimmed sql := by
  cases v with
  | text s =>
      rw [checkFragment] at h
      obtain ⟨trimmed, rfl⟩ := Text.isTrimmed_of_read (f := fun t => t) h
      exact trimmed
  | _ => cases h

theorem Node.checkFragment_again {sql : String} (h : Text.IsTrimmed sql) :
    checkFragment (.text sql) = .ok sql := by
  rw [checkFragment, if_neg (Bool.eq_false_iff.mp h.shown), h.2]

namespace Node

variable {data : List (String × Value)} {node : Node} {raws : Prop}

theorem Asked.canonical (asked : node.Asked raws) : node.Canonical := by
  induction asked with
  | @leaf _ _ _ operator _ _ named held =>
      exact .leaf operator.mem_all operator.isNormal (Operand.check_held held).suits
  | raw _ read =>
      exact .raw (checkFragment_trimmed read) (FragmentParams.isParams _)
  | group given _ ih => exact .group given ih

theorem leaf_again {given value : Value} {field : String} {operator : Operator} {operand : Operand}
    {c : Connector} (named : Identifier.check "field" given = .ok field)
    (held : Operand.check operator given value = .ok operand) :
    leafOfFields (leaf field operator operand c).toFields =
      .ok (.leaf field operator operand c) := by
  have again : Identifier.check "field" (.text field) = .ok field :=
    Identifier.check_accepted named "field"
  refine leafOfFields_ok.mpr ⟨field, operator, operand, c, ?_, rfl⟩
  exact {
    operated := operator.check_text
    held := (Operand.check_held held).again _
    kind := checkField_given rfl rfl
    named := checkField_given rfl (Checked.ofExcept_ok.mpr again)
    joined := checkField_given rfl (Connector.ofText_text c) }

theorem raw_again {sql : String} {params : Option FragmentParams} (c : Connector)
    (trimmed : Text.IsTrimmed sql) (kept : FragmentParams.IsKept params) :
    rawOfFields (raw sql params c).toFields = .ok (.raw sql params c) := by
  refine rawOfFields_ok.mpr ⟨sql, params, c, ?_, rfl⟩
  exact {
    kind := checkField_given rfl rfl
    read := checkField_given rfl (Checked.ofExcept_ok.mpr (checkFragment_again trimmed))
    held := checkField_given rfl (checkParams_again kept)
    joined := checkField_given rfl (Connector.ofText_text c) }

theorem group_again {items : List Node} (c : Connector) (given : items ≠ [])
    {checked : Option (Checked (List Node))} (inner : checked = some (.ok items)) :
    groupOfFields (group items c).toFields checked = .ok (.group items c) := by
  refine groupOfFields_ok.mpr ⟨items, c, ?_, rfl⟩
  exact {
    kind := checkField_given rfl rfl
    inner := inner
    given := given
    joined := checkField_given rfl (Connector.ofText_text c) }

theorem checkAll_toMaps {nodes : List Node}
    (each : ∀ node ∈ nodes, check (Fields.toValue node.toFields) = .ok node) :
    checkAll (toMaps nodes) = .ok nodes := by
  induction nodes with
  | nil => rfl
  | cons node rest ih =>
      obtain ⟨first, others⟩ := List.forall_mem_cons.mp each
      simp only [toMaps, checkAll, first, ih others]
      rfl

theorem check_toValue (fields : List (String × Value)) : check (Fields.toValue fields) =
    ofFields fields (checkItems (fields.map fun (name, v) => (.text name, v))) := by
  rw [Fields.toValue, check, Value.namedEntries_toValue]

theorem ofFields_leaf {items : Option (Checked (List Node))}
    (kind : Fields.get? "kind" data = some (.text leafKind)) :
    ofFields data items = leafOfFields data := by
  simp only [ofFields, kind, if_true]

theorem ofFields_raw {items : Option (Checked (List Node))}
    (kind : Fields.get? "kind" data = some (.text rawKind)) :
    ofFields data items = rawOfFields data := by
  simp only [ofFields, kind, if_true]
  exact if_neg (by decide)

theorem ofFields_group {items : Option (Checked (List Node))}
    (kind : Fields.get? "kind" data = some (.text groupKind)) :
    ofFields data items = groupOfFields data items := by
  simp only [ofFields, kind, if_true]
  rw [if_neg (by decide), if_neg (by decide)]

theorem checkItems_group (items : List Node) (c : Connector) :
    checkItems ((group items c).toFields.map fun (name, v) => (.text name, v)) =
      some (checkAll (toMaps items)) := by
  simp only [toFields, List.map_cons, checkItems, if_true]
  exact if_neg (by decide)

/-- A node is read again out of the map of its fields, with everything below it. -/
theorem Asked.again (asked : node.Asked raws) :
    check (Fields.toValue node.toFields) = .ok node := by
  induction asked with
  | @leaf _ _ field operator operand c named held =>
      rw [check_toValue, ofFields_leaf rfl]
      exact leaf_again named held
  | @raw _ _ sql params c _ read held =>
      rw [check_toValue, ofFields_raw rfl]
      exact raw_again c (checkFragment_trimmed read) (checkParams_kept held)
  | @group items c given _ ih =>
      rw [check_toValue, ofFields_group rfl, checkItems_group, checkAll_toMaps ih]
      exact group_again c given rfl

theorem leaf_retold : IsRetold leafOfFields toFields Canonical := by
  intro data node h
  have asked : node.Asked True := leafOfFields_asked h
  obtain ⟨_, _, _, _, -, rfl⟩ := leafOfFields_ok.mp h
  refine ⟨?_, asked.canonical⟩
  cases asked with
  | leaf named held => exact leaf_again named held

theorem raw_retold : IsRetold rawOfFields toFields Canonical := by
  intro data node h
  have asked : node.Asked True := rawOfFields_asked trivial h
  obtain ⟨_, _, _, -, rfl⟩ := rawOfFields_ok.mp h
  refine ⟨?_, asked.canonical⟩
  cases asked with
  | raw _ read held => exact raw_again _ (checkFragment_trimmed read) (checkParams_kept held)

theorem group_retold : IsRetold groupOfData toFields Canonical := by
  intro data node h
  have asked : node.Asked True := by
    refine groupOfFields_asked (fun nodes given => ?_) h
    obtain ⟨v, -, read⟩ := Option.map_eq_some_iff.mp given
    exact checkList_asked trivial v read
  obtain ⟨_, _, -, rfl⟩ := groupOfFields_ok.mp h
  refine ⟨?_, asked.canonical⟩
  cases asked with
  | group given each =>
      have inner := checkAll_toMaps fun item member => (each item member).again
      exact group_again _ given (congrArg some inner)

end Node

end FluentSql
