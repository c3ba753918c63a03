import FluentSql.Condition
import FluentSql.Proofs.CheckedFields

/-!
Where nodes come from. Whatever shape a condition is asked for in, and however deep in callbacks or
plain data, its node is put together from checked comparisons, checked fragments and groups that are
not empty. There are fragments only where a raw text is taken.
-/

namespace FluentSql

/-- A node that was put together by checks, with fragments only if raw texts are admitted. -/
inductive Node.Asked (raws : Prop) : Node → Prop
  | leaf {given value : Value} {field : String} {operator : Operator} {operand : Operand}
      {c : Connector} (named : Identifier.check "field" given = .ok field)
      (held : Operand.check operator given value = .ok operand) :
      Asked raws (.leaf field operator operand c)
  | raw {given params : Value} {sql : String} {checked : Option FragmentParams} {c : Connector}
      (admitted : raws) (read : Node.checkFragment given = .ok sql)
      (held : Node.checkParams params = .ok checked) : Asked raws (.raw sql checked c)
  | group {items : List Node} {c : Connector} (given : items ≠ [])
      (asked : ∀ item ∈ items, Asked raws item) : Asked raws (.group items c)

namespace Condition

/-- The calls on a group that take a text as it is. -/
def isRawCall (name : String) : Bool := name == "where_raw" || name == "or_where_raw"

mutual

/-- Whether a callback takes a raw text somewhere among its calls. -/
def asksRaw : Value → Bool
  | .callback calls => callsAskRaw calls
  | _ => false

def callsAskRaw : List (String × List Value) → Bool
  | [] => false
  | (name, args) :: rest => callAsksRaw name args || callsAskRaw rest

/-- Only the first argument of a call can be a callback that is run. -/
def callAsksRaw (name : String) : List Value → Bool
  | [] => isRawCall name
  | first :: _ => isRawCall name || asksRaw first

end

end Condition

section

variable {raws : Prop} {node : Node} {c : Connector}

namespace Node

theorem ofComparison_asked {field operator v : Value}
    (h : ofComparison field operator v c = .ok node) : node.Asked raws := by
  obtain ⟨op, -, h⟩ := ok_bind_iff.mp h
  obtain ⟨operand, held, h⟩ := ok_bind_iff.mp h
  obtain ⟨name, named, h⟩ := ok_bind_iff.mp h
  cases h
  exact .leaf named held

theorem ofFragment_asked (admitted : raws) {sql params : Value}
    (h : ofFragment sql params c = .ok node) : node.Asked raws := by
  obtain ⟨_, checked, htext, held, rfl⟩ := Checked.app_ok.mp (Checked.toExcept_ok.mp h)
  obtain ⟨text, read, rfl⟩ := Checked.map_ok.mp htext
  exact .raw admitted (Checked.ofExcept_ok.mp read) (Checked.inField_ok.mp held)

theorem Asked.of_given {items : List Node} (given : ¬ items.isEmpty = true)
    (each : ∀ item ∈ items, item.Asked raws) : (Node.group items c).Asked raws :=
  .group (fun none => given (List.isEmpty_iff.mpr none)) each

theorem ofItems_asked {items : List Node} (each : ∀ item ∈ items, item.Asked raws)
    (h : ofItems items c = .ok node) : node.Asked raws := by
  simp only [ofItems] at h
  split at h
  · cases h
  · next given =>
      cases h
      exact .of_given given each

end Node

namespace Condition

theorem ofEntry_asked {entry : Value} (h : ofEntry entry = .ok node) : node.Asked raws := by
  simp only [ofEntry] at h
  split at h
  · simp only [ofEntryItems] at h
    split at h
    · exact Node.ofComparison_asked h
    · exact Node.ofComparison_asked h
    · cases h
  · cases h

theorem ofEntries_asked {entries : List Value} (h : ofEntries entries c = .ok node) :
    node.Asked raws := by
  obtain ⟨nodes, hnodes, h⟩ := ok_bind_iff.mp h
  exact Node.ofItems_asked (forall_of_mapM (fun _ _ => ofEntry_asked) hnodes) h

theorem ofMap_asked {entries : List (Value × Value)} (h : ofMap entries c = .ok node) :
    node.Asked raws := by
  obtain ⟨nodes, hnodes, h⟩ := ok_bind_iff.mp h
  exact Node.ofItems_asked (forall_of_mapM (fun _ _ => Node.ofComparison_asked) hnodes) h

theorem ofArguments_asked {first second third : Value}
    (h : ofArguments first second third c = .ok node) : node.Asked raws := by
  simp only [ofArguments] at h
  split at h
  · split at h
    · exact Node.ofComparison_asked h
    · split at h
      · cases h
      · exact Node.ofComparison_asked h
  · cases h

theorem ofCallback_asked {items : List Node} (each : ∀ item ∈ items, item.Asked raws)
    (h : ofCallback items c = .ok node) : node.Asked raws := by
  simp only [ofCallback] at h
  split at h
  · cases h
  · next given =>
      cases h
      exact .of_given given each

theorem ofSimpleCall_asked {name : String} {args : List Value}
    (admitted : isRawCall name = true → raws) (h : ofSimpleCall name args = .ok node) :
    node.Asked raws := by
  simp only [ofSimpleCall] at h
  split at h
  all_goals first
    | exact Node.ofComparison_asked h
    | exact Node.ofFragment_asked (admitted rfl) h
    | cases h

mutual

theorem resolve_asked :
    ∀ (first second third : Value) (c : Connector) {node : Node},
      (asksRaw first = true → raws) → resolve first second third c = .ok node → node.Asked raws
  | .callback calls, second, third, c, node, admitted, h => by
      simp only [resolve] at h
      split at h
      · split at h
        · next items hitems => exact ofCallback_asked (ofCalls_asked calls admitted hitems) h
        · cases h
      · cases h
  | .map entries, second, third, c, node, _, h => by
      simp only [resolve] at h
      split at h
      · split at h
        · cases h
        · exact ofMap_asked h
      · exact ofArguments_asked h
  | .list items, second, third, c, node, _, h | .tuple items, second, third, c, node, _, h => by
      simp only [resolve] at h
      split at h
      · split at h
        · cases h
        · exact ofEntries_asked h
      · exact ofArguments_asked h
  | .none, second, third, c, node, _, h | .bool _, second, third, c, node, _, h
  | .int _, second, third, c, node, _, h | .float _, second, third, c, node, _, h
  | .text _, second, third, c, node, _, h | .bytes _, second, third, c, node, _, h
  | .iterator _, second, third, c, node, _, h | .missing, second, third, c, node, _, h => by
      simp only [resolve] at h
      split at h
      · cases h
      · exact ofArguments_asked h

theorem ofCalls_asked :
    ∀ (calls : List (String × List Value)) {nodes : List Node},
      (callsAskRaw calls = true → raws) → ofCalls calls = .ok nodes →
        ∀ node ∈ nodes, node.Asked raws
  | [], nodes, _, h => by
      cases h
      exact List.forall_mem_nil _
  | (name, args) :: rest, nodes, admitted, h => by
      simp only [callsAskRaw, Bool.or_eq_true, or_imp] at admitted
      simp only [ofCalls] at h
      split at h
      · cases h
      · next first hfirst =>
          split at h
          · cases h
          · next later hlater =>
              cases h
              exact List.forall_mem_cons.mpr ⟨ofCall_asked name args admitted.1 hfirst,
                ofCalls_asked rest admitted.2 hlater⟩

theorem ofCall_asked (name : String) :
    ∀ (args : List Value) {node : Node},
      (callAsksRaw name args = true → raws) → ofCall name args = .ok node → node.Asked raws
  | [first], node, admitted, h => by
      simp only [callAsksRaw, Bool.or_eq_true, or_imp] at admitted
      simp only [ofCall] at h
      split at h
      · exact resolve_asked first _ _ _ admitted.2 h
      · exact ofSimpleCall_asked admitted.1 h
  | [first, second], node, admitted, h => by
      simp only [callAsksRaw, Bool.or_eq_true, or_imp] at admitted
      simp only [ofCall] at h
      split at h
      · exact resolve_asked first second _ _ admitted.2 h
      · exact ofSimpleCall_asked admitted.1 h
  | [first, second, third], node, admitted, h => by
      simp only [callAsksRaw, Bool.or_eq_true, or_imp] at admitted
      simp only [ofCall] at h
      split at h
      · exact resolve_asked first second third _ admitted.2 h
      · exact ofSimpleCall_asked admitted.1 h

end

end Condition

namespace Node

variable {data : List (String × Value)}

theorem leafOfFields_asked (h : leafOfFields data = .ok node) : node.Asked raws := by
  obtain ⟨field, operator, operand, c, parts, rfl⟩ := leafOfFields_ok.mp h
  have held := parts.held
  -- the operand was checked for the field as it was given
  obtain ⟨given, found, named⟩ | ⟨-, absent⟩ := checkField_ok.mp parts.named
  · rw [found] at held
    exact .leaf (Checked.ofExcept_ok.mp named) held
  · cases absent

theorem rawOfFields_asked (admitted : raws) (h : rawOfFields data = .ok node) :
    node.Asked raws := by
  obtain ⟨sql, params, c, parts, rfl⟩ := rawOfFields_ok.mp h
  obtain ⟨given, -, read⟩ | ⟨-, absent⟩ := checkField_ok.mp parts.read
  · obtain ⟨v, -, held⟩ | ⟨-, absent⟩ := checkField_ok.mp parts.held
    · exact .raw admitted (Checked.ofExcept_ok.mp read) held
    · cases absent
      have nothing : checkParams .none = .ok none := rfl
      exact .raw admitted (Checked.ofExcept_ok.mp read) nothing
  · cases absent

theorem groupOfFields_asked {items : Option (Checked (List Node))}
    (inner : ∀ nodes, items = some (.ok nodes) → ∀ node ∈ nodes, node.Asked raws)
    (h : groupOfFields data items = .ok node) : node.Asked raws := by
  obtain ⟨nodes, c, parts, rfl⟩ := groupOfFields_ok.mp h
  exact .group parts.given (inner nodes parts.inner)

theorem ofFields_asked (admitted : raws) {items : Option (Checked (List Node))}
    (inner : ∀ nodes, items = some (.ok nodes) → ∀ node ∈ nodes, node.Asked raws)
    (h : ofFields data items = .ok node) : node.Asked raws := by
  simp only [ofFields] at h
  split at h
  · split at h
    · exact leafOfFields_asked h
    · split at h
      · exact rawOfFields_asked admitted h
      · split at h
        · exact groupOfFields_asked inner h
        · cases h
  · cases h

mutual

theorem check_asked (admitted : raws) :
    ∀ (v : Value) {node : Node}, check v = .ok node → node.Asked raws
  | .map entries, _, h => ofFields_asked admitted (fun _ => checkItems_asked admitted entries) h

theorem checkItems_asked (admitted : raws) :
    ∀ (entries : List (Value × Value)) {nodes : List Node},
      checkItems entries = some (.ok nodes) → ∀ node ∈ nodes, node.Asked raws
  | (key, v) :: rest, nodes, h => by
      cases key with
      | text name =>
          simp only [checkItems] at h
          split at h
          · exact checkList_asked admitted v (Option.some.inj h)
          · exact checkItems_asked admitted rest h
      | _ => exact checkItems_asked admitted rest h

theorem checkList_asked (admitted : raws) : ∀ (v : Value) {nodes : List Node},
    checkList v = .ok nodes → ∀ node ∈ nodes, node.Asked raws
  | .list vs, _, h | .tuple vs, _, h | .iterator vs, _, h => checkAll_asked admitted vs h

theorem checkAll_asked (admitted : raws) : ∀ (vs : List Value) {nodes : List Node},
    checkAll vs = .ok nodes → ∀ node ∈ nodes, node.Asked raws
  | [], _, h => by
      cases h
      exact List.forall_mem_nil _
  | v :: rest, _, h => by
      obtain ⟨_, nodes, hfirst, hrest, rfl⟩ := Checked.app_ok.mp h
      obtain ⟨node, hnode, rfl⟩ := Checked.map_ok.mp hfirst
      exact List.forall_mem_cons.mpr
        ⟨check_asked admitted v hnode, checkAll_asked admitted rest hrest⟩

end

end Node

end
end FluentSql
