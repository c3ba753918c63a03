import FluentSql.Proofs.NamedFields
import FluentSql.Proofs.RegroupedStatements

/-!
The shapes of a condition. A list of comparisons may be asked for call by call, or at once as a
list, as a map of equalities or by a callback. At once they become one group of the nodes that the
calls give one by one. So what is asked for at the top of a statement, or in a callback at any
depth, is accepted alike, holds alike, and is written with the same parameters; the group has
parentheses where it has several items and others beside it.
-/

namespace FluentSql

namespace Condition

/-- A column and a value, or a column, an operator and a value, all of them given. -/
def IsComparison (args : List Value) : Prop :=
  (args.length = 2 ∨ args.length = 3) ∧ ∀ v ∈ args, v.isMissing = false

/-- The calls that ask for comparisons one after the other. -/
def inTurn (comparisons : List (List Value)) : List (String × List Value) :=
  comparisons.map fun args => ("where", args)

/-- The arguments that ask for comparisons at once. -/
inductive Gathers : List (List Value) → Value → Prop
  | list {comparisons : List (List Value)} {given : List Value}
      (entries : given.map Value.sequence? = comparisons.map some) :
      Gathers comparisons (.list given)
  | tuple {comparisons : List (List Value)} {given : List Value}
      (entries : given.map Value.sequence? = comparisons.map some) :
      Gathers comparisons (.tuple given)
  | map {fields : List (String × Value)} (distinct : (Fields.keys fields).Nodup) :
      Gathers (fields.map fun (field, v) => [.text field, v]) (Fields.toValue fields)
  | callback (comparisons : List (List Value)) :
      Gathers comparisons (.callback (inTurn comparisons))

theorem connectorOf_where : connectorOf? "where" = some .and := rfl

theorem ofComparison_connector {field operator v : Value} {c : Connector} {node : Node}
    (h : Node.ofComparison field operator v c = .ok node) : node.connector = c := by
  obtain ⟨_, -, h⟩ := ok_bind_iff.mp h
  obtain ⟨_, -, h⟩ := ok_bind_iff.mp h
  obtain ⟨_, -, h⟩ := ok_bind_iff.mp h
  cases h
  rfl

theorem resolve_arguments {first second third : Value} {c : Connector}
    (given : (second.isMissing && third.isMissing) = false) :
    resolve first second third c = ofArguments first second third c := by
  cases first <;> simp only [resolve, given, Bool.false_eq_true, if_false]

theorem ofArguments_text {first second third : Value} {c : Connector} {node : Node}
    (h : ofArguments first second third c = .ok node) : ∃ field, first = .text field := by
  cases first with
  | text field => exact ⟨field, rfl⟩
  | _ => cases h

theorem ofCall_comparison {args : List Value} (comparison : IsComparison args) {node : Node}
    (h : ofCall "where" args = .ok node) :
    ofEntryItems args = .ok node ∧ node.connector = .and := by
  obtain ⟨two | three, present⟩ := comparison
  · obtain ⟨first, v, rfl⟩ := List.length_eq_two.mp two
    have given : v.isMissing = false := present v (by simp)
    simp only [ofCall, connectorOf_where] at h
    rw [resolve_arguments (by rw [given]; rfl)] at h
    obtain ⟨field, rfl⟩ := ofArguments_text h
    have entry : ofEntryItems [.text field, v] = .ok node := h
    exact ⟨entry, ofComparison_connector entry⟩
  · obtain ⟨first, operator, v, rfl⟩ := List.length_eq_three.mp three
    have given : operator.isMissing = false := present operator (by simp)
    have given' : v.isMissing = false := present v (by simp)
    simp only [ofCall, connectorOf_where] at h
    rw [resolve_arguments (by rw [given]; rfl)] at h
    obtain ⟨field, rfl⟩ := ofArguments_text h
    simp only [ofArguments, given, given', Bool.false_eq_true, if_false] at h
    have entry : ofEntryItems [.text field, operator, v] = .ok node := h
    exact ⟨entry, ofComparison_connector entry⟩

theorem ofCalls_cons_ok {name : String} {args : List Value} {calls : List (String × List Value)}
    {nodes : List Node} : ofCalls ((name, args) :: calls) = .ok nodes ↔
      ∃ node rest, ofCall name args = .ok node ∧ ofCalls calls = .ok rest ∧
        nodes = node :: rest := by
  simp only [ofCalls]
  cases ofCall name args with
  | error e => simp
  | ok node =>
      cases ofCalls calls with
      | error e => simp
      | ok rest => simp [eq_comm]

/-- The nodes of comparisons that were asked for one after the other are those of entries. -/
theorem ofCalls_inTurn {comparisons : List (List Value)} {nodes : List Node}
    (each : ∀ args ∈ comparisons, IsComparison args)
    (h : ofCalls (inTurn comparisons) = .ok nodes) :
    comparisons.mapM ofEntryItems = .ok nodes ∧ nodes.length = comparisons.length ∧
      ∀ node ∈ nodes, node.connector = .and := by
  induction comparisons generalizing nodes with
  | nil =>
      cases h
      exact ⟨rfl, rfl, List.forall_mem_nil _⟩
  | cons args comparisons ih =>
      obtain ⟨first, others⟩ := List.forall_mem_cons.mp each
      obtain ⟨node, rest, asked, later, rfl⟩ := ofCalls_cons_ok.mp h
      obtain ⟨entry, joined⟩ := ofCall_comparison first asked
      obtain ⟨entries, length, allJoined⟩ := ih others later
      refine ⟨?_, by rw [List.length_cons, length, List.length_cons],
        List.forall_mem_cons.mpr ⟨joined, allJoined⟩⟩
      rw [List.mapM_cons]
      exact ok_bind_iff.mpr ⟨node, entry, ok_bind_iff.mpr ⟨rest, entries, rfl⟩⟩

theorem mapM_ofEntry {given : List Value} {comparisons : List (List Value)}
    (entries : given.map Value.sequence? = comparisons.map some) :
    given.mapM ofEntry = comparisons.mapM ofEntryItems := by
  induction given generalizing comparisons with
  | nil =>
      obtain rfl := List.map_eq_nil_iff.mp entries.symm
      rfl
  | cons entry given ih =>
      cases comparisons with
      | nil => cases entries
      | cons args comparisons =>
          obtain ⟨first, others⟩ := List.cons.inj entries
          have same : ofEntry entry = ofEntryItems args := by
            simp only [ofEntry, first]
          rw [List.mapM_cons, List.mapM_cons, same, ih others]

theorem mapM_ofField (fields : List (String × Value)) :
    (fields.map fun (key, v) => (Value.text key, v)).mapM
        (fun (field, v) => Node.ofEquality field v .and) =
      (fields.map fun (field, v) => [.text field, v]).mapM ofEntryItems := by
  induction fields with
  | nil => rfl
  | cons entry fields ih =>
      rw [List.map_cons, List.map_cons, List.mapM_cons, List.mapM_cons, ih]
      rfl

/-- Comparisons that are accepted one after the other are accepted at once, as one group. -/
theorem ofCall_gathered {comparisons : List (List Value)} {v : Value} {nodes : List Node}
    (given : comparisons ≠ []) (each : ∀ args ∈ comparisons, IsComparison args)
    (gathers : Gathers comparisons v) (h : ofCalls (inTurn comparisons) = .ok nodes) :
    ofCall "where" [v] = .ok (.group nodes .and) := by
  obtain ⟨entries, length, -⟩ := ofCalls_inTurn each h
  have filled : nodes ≠ [] := by
    rw [ne_eq, ← List.length_eq_zero_iff, length, List.length_eq_zero_iff]
    exact given
  have group : Node.ofItems nodes .and = .ok (.group nodes .and) := by
    simp [Node.ofItems, filled]
  have several {entries : List Value} (same : entries.map Value.sequence? = comparisons.map some) :
      entries.isEmpty = false := by
    cases entries with
    | nil => exact absurd (List.map_eq_nil_iff.mp same.symm) given
    | cons entry entries => rfl
  simp only [ofCall, connectorOf_where]
  cases gathers with
  | @list _ items same | @tuple _ items same =>
      have filled : items.isEmpty = false := several same
      simp only [resolve, Value.isMissing, Bool.and_self, if_true, filled, Bool.false_eq_true,
        if_false, ofEntries, mapM_ofEntry same, entries]
      exact group
  | @map fields distinct =>
      have filled : (fields.map fun (key, v) => (Value.text key, v)).isEmpty = false := by
        cases fields with
        | nil => exact absurd rfl given
        | cons entry fields => rfl
      simp only [Fields.toValue, resolve, Value.isMissing, Bool.and_self, if_true, filled,
        Bool.false_eq_true, if_false, ofMap, mapM_ofField, entries]
      exact group
  | callback =>
      simp only [resolve, Value.isMissing, Bool.and_self, if_true, h, ofCallback]
      simp [filled]

/-- The call that asks for a group, by the group's connector. -/
def groupCall : Connector → String
  | .and => "where"
  | .or => "or_where"

theorem connectorOf_groupCall (c : Connector) : connectorOf? (groupCall c) = some c := by
  cases c <;> rfl

/-- A place among the calls of a callback: between earlier and later calls, or in a callback that
stands between such calls. -/
inductive Place where
  | here (before after : List (String × List Value))
  | inside (before : List (String × List Value)) (c : Connector) (inner : Place)
      (after : List (String × List Value))

namespace Place

def fill (calls : List (String × List Value)) : Place → List (String × List Value)
  | here before after => before ++ (calls ++ after)
  | inside before c inner after =>
    before ++ (groupCall c, [.callback (inner.fill calls)]) :: after

/-- No other calls are made on the group of the place. -/
def Alone : Place → Prop
  | here before after => before = [] ∧ after = []
  | inside _ _ inner _ => inner.Alone

end Place

theorem ofCalls_append (calls later : List (String × List Value)) :
    ofCalls (calls ++ later) =
      ofCalls calls >>= fun nodes => ofCalls later >>= fun rest => .ok (nodes ++ rest) := by
  induction calls with
  | nil =>
      change ofCalls later = ofCalls later >>= _
      cases ofCalls later with
      | error e => rfl
      | ok rest => rfl
  | cons call calls ih =>
      obtain ⟨name, args⟩ := call
      rw [List.cons_append, ofCalls, ofCalls, ih]
      cases ofCall name args with
      | error e => rfl
      | ok node =>
          cases ofCalls calls with
          | error e => rfl
          | ok nodes =>
              simp only [bind, Except.bind]
              cases ofCalls later with
              | error e => rfl
              | ok rest => rfl

theorem ofCalls_length {calls : List (String × List Value)} {nodes : List Node}
    (h : ofCalls calls = .ok nodes) : nodes.length = calls.length := by
  induction calls generalizing nodes with
  | nil =>
      cases h
      rfl
  | cons call calls ih =>
      obtain ⟨node, rest, -, later, rfl⟩ := ofCalls_cons_ok.mp h
      rw [List.length_cons, ih later, List.length_cons]

theorem ofCalls_eq_nil_iff {calls : List (String × List Value)} {nodes : List Node}
    (h : ofCalls calls = .ok nodes) : nodes = [] ↔ calls = [] := by
  rw [← List.length_eq_zero_iff, ofCalls_length h, List.length_eq_zero_iff]

theorem resolve_callback (calls : List (String × List Value)) (c : Connector) :
    resolve (.callback calls) .missing .missing c =
      ofCalls calls >>= fun items => ofCallback items c := by
  simp only [resolve, Value.isMissing, Bool.and_self, if_true]
  cases ofCalls calls <;> rfl

theorem ofCall_callback (calls : List (String × List Value)) (c : Connector) :
    ofCall (groupCall c) [.callback calls] =
      ofCalls calls >>= fun items => ofCallback items c := by
  simp only [ofCall, connectorOf_groupCall, resolve_callback]

theorem ofCallback_ok {items : List Node} (given : items ≠ []) (c : Connector) :
    ofCallback items c = .ok (.group items c) := by
  simp [ofCallback, given]

theorem ofCalls_inside (before after calls : List (String × List Value)) (c : Connector)
    (inner : Place) : ofCalls ((Place.inside before c inner after).fill calls) =
      ofCalls before >>= fun nodes => ofCalls (inner.fill calls) >>= fun items =>
        ofCallback items c >>= fun node => ofCalls after >>= fun rest =>
          .ok (nodes ++ node :: rest) := by
  rw [Place.fill, ofCalls_append, ofCalls, ofCall_callback]
  cases ofCalls before with
  | error e => rfl
  | ok nodes =>
      cases ofCalls (inner.fill calls) with
      | error e => rfl
      | ok items =>
          simp only [bind, Except.bind]
          cases ofCallback items c with
          | error e => rfl
          | ok node => cases ofCalls after <;> rfl

variable {calls calls' : List (String × List Value)} {items : List Node}

/-- Calls that give nodes and calls that give the group of them, put into the same place. -/
theorem Place.agree (place : Place) (given : items ≠ []) (apart : ofCalls calls = .ok items)
    (grouped : ofCalls calls' = .ok [.group items .and]) :
    Agree (Node.Regrouped items place.Alone) (ofCalls (place.fill calls))
      (ofCalls (place.fill calls')) := by
  induction place with
  | here before after =>
      simp only [fill, ofCalls_append, apart, grouped]
      cases earlier : ofCalls before with
      | error e => exact Agree.error e
      | ok nodes =>
          cases later : ofCalls after with
          | error e => exact Agree.error e
          | ok rest =>
              refine Agree.ok (.here ?_)
              rw [ofCalls_eq_nil_iff earlier, ofCalls_eq_nil_iff later]
              rfl
  | inside before c inner after ih =>
      rw [ofCalls_inside, ofCalls_inside]
      refine (Agree.same _).bind fun nodes _ same => ih.bind fun within within' regrouped => ?_
      cases same
      -- a callback without conditions is refused, but both have some
      obtain ⟨filled, filled'⟩ := regrouped.ne_nil given
      rw [ofCallback_ok filled, ofCallback_ok filled']
      refine (Agree.same (ofCalls after)).bind fun rest _ same => ?_
      cases same
      exact Agree.ok (.inside nodes rest c regrouped)

end Condition

namespace Builder

/-- Calls one after the other, and the complaints about those that are refused. -/
def chainAll : Builder → List Call → Builder × List Error
  | b, [] => (b, [])
  | b, c :: rest =>
    let first := b.chain c
    let later := chainAll first.1 rest
    (later.1, first.2.toList ++ later.2)

/-- A place for conditions: the builder itself, or a place in a callback for one of its clauses. -/
inductive Site where
  | direct
  | condition (c : Connector) (place : Condition.Place)
  | having (c : Connector) (place : Condition.Place)

namespace Site

def calls (given : List (String × List Value)) : Site → List Call
  | direct => given.map fun (name, args) => .condition name args
  | condition c place => [.condition (Condition.groupCall c) [.callback (place.fill given)]]
  | having c place => [.having c (.callback (place.fill given)) .missing .missing]

/-- Beside as many conditions there are no others at the place. -/
def Alone (number : Nat) (s : Statement) : Site → Prop
  | direct => s.predicates.length = number
  | condition _ place | having _ place => place.Alone

end Site

end Builder

/-- The conditions on groups that a call adds when it is accepted. -/
def Call.groupConditions : Call → List Node
  | .having c first second third => (Condition.resolve first second third c).toOption.toList
  | .havingRaw c sql params => (Node.ofFragment sql params c).toOption.toList
  | _ => []

theorem Call.orKeep_withConditions {α : Type} {s : Statement} {predicates having : List Node}
    (read : Except Error α) {change change' : α → Statement}
    (kept : ∀ a, change' a = (change a).withConditions predicates having) :
    orKeep (s.withConditions predicates having) (read >>= fun a => .ok (change' a)) =
      ((orKeep s (read >>= fun a => .ok (change a))).1.withConditions predicates having,
        (orKeep s (read >>= fun a => .ok (change a))).2) := by
  cases read with
  | error e => rfl
  | ok a => exact congrArg (fun changed => (changed, none)) (kept a)

/-- A call adds its conditions behind those that are there, and does not look at them. -/
theorem Call.apply_withConditions (c : Call) (s : Statement) (predicates having : List Node) :
    c.apply (s.withConditions predicates having) =
      ((c.apply s).1.withConditions (predicates ++ c.conditions) (having ++ c.groupConditions),
        (c.apply s).2) := by
  cases c with
  | condition name args =>
      simp only [apply, conditions, groupConditions, List.append_nil]
      cases Condition.ofCall name args with
      | error e => simp only [Except.toOption, Option.toList, List.append_nil]; rfl
      | ok node => rfl
  | having c first second third =>
      simp only [apply, conditions, groupConditions, List.append_nil]
      cases Condition.resolve first second third c with
      | error e => simp only [Except.toOption, Option.toList, List.append_nil]; rfl
      | ok node => rfl
  | havingRaw c sql params =>
      simp only [apply, conditions, groupConditions, List.append_nil]
      cases Node.ofFragment sql params c with
      | error e => simp only [Except.toOption, Option.toList, List.append_nil]; rfl
      | ok node => rfl
  | select columns =>
      simp only [apply, conditions, groupConditions, List.append_nil,
        Terminal.claim_withConditions]
      cases s.claim .select with
      | error e => rfl
      | ok claimed => exact orKeep_withConditions (projection columns) fun _ => rfl
  | groupBy columns =>
      simp only [apply_groupBy, conditions, groupConditions, List.append_nil]
      split
      · rfl
      · rfl
  | rawSql sql params =>
      simp only [apply, conditions, groupConditions, List.append_nil]
      cases rawText sql with
      | error e => rfl
      | ok text => cases Params.check params <;> rfl
  | paginate page perPage =>
      simp only [apply, conditions, groupConditions, List.append_nil]
      cases pageOf page perPage <;> rfl
  | distinct | unconditional =>
      simp only [apply, conditions, groupConditions, List.append_nil]
      rfl
  | table | join | groupByRaw | orderBy | orderByRaw | limit | offset =>
      simp only [conditions, groupConditions, List.append_nil]
      exact orKeep_withConditions _ fun _ => rfl

namespace Builder

def withConditions (b : Builder) (predicates having : List Node) : Builder :=
  { b with statement := b.statement.withConditions predicates having }

variable {b : Builder} (opened : b.consumed = false)
include opened

/-- Calls add the same conditions whatever conditions there are, and are refused for the same
reasons. -/
theorem chainAll_withConditions (calls : List Call) (predicates having : List Node) :
    (b.withConditions predicates having).chainAll calls =
      ((b.chainAll calls).1.withConditions (predicates ++ calls.flatMap Call.conditions)
        (having ++ calls.flatMap Call.groupConditions), (b.chainAll calls).2) := by
  induction calls generalizing b predicates having with
  | nil =>
      rw [List.flatMap_nil, List.flatMap_nil, List.append_nil, List.append_nil]
      rfl
  | cons c calls ih =>
      have opened' : (b.withConditions predicates having).consumed = false := opened
      have first : (b.withConditions predicates having).chain c =
          ((b.chain c).1.withConditions (predicates ++ c.conditions)
            (having ++ c.groupConditions), (b.chain c).2) := by
        rw [chain_open opened', chain_open opened]
        simp only [withConditions, Call.apply_withConditions]
      have still : (b.chain c).1.consumed = false := by
        rw [chain_open opened]
        exact opened
      simp only [chainAll, first, ih still, List.flatMap_cons, List.append_assoc]

variable {calls calls' : List (String × List Value)} {items : List Node}

theorem chainAll_direct {nodes : List Node} (h : Condition.ofCalls calls = .ok nodes) :
    b.chainAll (Site.direct.calls calls) =
      (b.withConditions (b.statement.predicates ++ nodes) b.statement.having, []) := by
  induction calls generalizing b nodes with
  | nil =>
      cases h
      rw [List.append_nil]
      rfl
  | cons call calls ih =>
      obtain ⟨name, args⟩ := call
      obtain ⟨node, rest, asked, later, rfl⟩ := Condition.ofCalls_cons_ok.mp h
      have first : b.chain (.condition name args) =
          (b.withConditions (b.statement.predicates ++ [node]) b.statement.having, none) := by
        rw [chain_open opened, Call.apply_accepted.mpr (.condition asked)]
        rfl
      have still : (b.withConditions (b.statement.predicates ++ [node])
          b.statement.having).consumed = false := opened
      have others := ih still later
      simp only [Site.calls, List.map_cons, chainAll, first] at others ⊢
      rw [others]
      simp only [withConditions, Statement.withConditions, List.append_assoc]
      rfl

theorem chainAll_callback (calls : List (String × List Value)) (c : Connector) :
    (∀ e, Condition.ofCalls calls = .error e →
        b.chainAll [.condition (Condition.groupCall c) [.callback calls]] = (b, [e]) ∧
        b.chainAll [.having c (.callback calls) .missing .missing] = (b, [e])) ∧
      ∀ items, items ≠ [] → Condition.ofCalls calls = .ok items →
        b.chainAll [.condition (Condition.groupCall c) [.callback calls]] =
          (b.withConditions (b.statement.predicates ++ [.group items c]) b.statement.having, []) ∧
        b.chainAll [.having c (.callback calls) .missing .missing] =
          (b.withConditions b.statement.predicates (b.statement.having ++ [.group items c]),
            []) := by
  have single (c : Call) : b.chainAll [c] =
      ({ b with statement := (c.apply b.statement).1 }, (c.apply b.statement).2.toList) := by
    simp only [chainAll, chain_open opened, List.append_nil]
  constructor
  · intro e refused
    constructor
    · simp only [single, Call.apply, Condition.ofCall_callback, refused]
      rfl
    · simp only [single, Call.apply, Condition.resolve_callback, refused]
      rfl
  · intro items given read
    constructor
    · simp only [single, Call.apply, Condition.ofCall_callback, read, bind, Except.bind,
        Condition.ofCallback_ok given]
      rfl
    · simp only [single, Call.apply, Condition.resolve_callback, read, bind, Except.bind,
        Condition.ofCallback_ok given]
      rfl

/-- Calls that give nodes and calls that give the group of them, at the same place of a builder:
both are refused, or the builder has the nodes in one case and the group in the other, whatever
conditions are added later. -/
theorem site_regrouped (site : Site) (given : items ≠ [])
    (apart : Condition.ofCalls calls = .ok items)
    (grouped : Condition.ofCalls calls' = .ok [.group items .and]) :
    (∃ e, b.chainAll (site.calls calls) = (b, [e]) ∧ b.chainAll (site.calls calls') = (b, [e])) ∨
      ∃ predicates having predicates' having',
        b.chainAll (site.calls calls) = (b.withConditions predicates having, []) ∧
        b.chainAll (site.calls calls') = (b.withConditions predicates' having', []) ∧
        ∀ (s : Statement) (added added' : List Node),
          let apart := s.withConditions (predicates ++ added) (having ++ added')
          Statement.Regrouped items (site.Alone items.length apart) apart
            (s.withConditions (predicates' ++ added) (having' ++ added')) := by
  cases site with
  | direct =>
      refine .inr ⟨_, _, _, _, chainAll_direct opened apart, chainAll_direct opened grouped, ?_⟩
      intro s added added'
      rw [List.append_assoc, List.append_assoc]
      refine .predicates s _ (.here ?_)
      have alone : (b.statement.predicates ++ (items ++ added)).length = items.length ↔
          b.statement.predicates = [] ∧ added = [] := by
        simp only [List.length_append, ← List.length_eq_zero_iff]
        omega
      exact alone
  | condition c place =>
      obtain ⟨e, refused, refused'⟩ | ⟨within, within', read, read', regrouped⟩ :=
        (place.agree given apart grouped).cases
      · exact .inl ⟨e, ((chainAll_callback opened _ c).1 e refused).1,
          ((chainAll_callback opened _ c).1 e refused').1⟩
      · obtain ⟨filled, filled'⟩ := regrouped.ne_nil given
        refine .inr ⟨_, _, _, _, ((chainAll_callback opened _ c).2 within filled read).1,
          ((chainAll_callback opened _ c).2 within' filled' read').1, fun s added added' => ?_⟩
        rw [List.append_assoc, List.append_assoc]
        exact .predicates s _ (.inside _ added c regrouped)
  | having c place =>
      obtain ⟨e, refused, refused'⟩ | ⟨within, within', read, read', regrouped⟩ :=
        (place.agree given apart grouped).cases
      · exact .inl ⟨e, ((chainAll_callback opened _ c).1 e refused).2,
          ((chainAll_callback opened _ c).1 e refused').2⟩
      · obtain ⟨filled, filled'⟩ := regrouped.ne_nil given
        refine .inr ⟨_, _, _, _, ((chainAll_callback opened _ c).2 within filled read).2,
          ((chainAll_callback opened _ c).2 within' filled' read').2, fun s added added' => ?_⟩
        simp only [List.append_assoc]
        exact .having s _ (.inside _ added' c regrouped)

/-- Comparisons that are accepted one after the other are accepted at once, in every shape and at
every place, whatever was asked for before and is asked for later. The builders ask for the same,
with one more pair of parentheses in the text unless there is one comparison, or no others stand
beside them. -/
theorem condition_shapes_ask_alike {comparisons : List (List Value)} (given : comparisons ≠ [])
    (each : ∀ args ∈ comparisons, Condition.IsComparison args) {v : Value}
    (gathers : Condition.Gathers comparisons v) {nodes : List Node}
    (accepted : Condition.ofCalls (Condition.inTurn comparisons) = .ok nodes) (site : Site) :
    let apart := b.chainAll (site.calls (Condition.inTurn comparisons))
    let atOnce := b.chainAll (site.calls [("where", [v])])
    nodes.length = comparisons.length ∧
      Condition.ofCall "where" [v] = .ok (.group nodes .and) ∧
      atOnce.2 = apart.2 ∧ (site = .direct → apart.2 = []) ∧
      (apart.2 ≠ [] → atOnce.1 = apart.1) ∧
      (apart.2 = [] → ∀ later : List Call,
        (atOnce.1.chainAll later).2 = (apart.1.chainAll later).2 ∧
          (apart.1.chainAll later).1.AsksAlike nodes
            (site.Alone comparisons.length (apart.1.chainAll later).1.statement)
            (atOnce.1.chainAll later).1) := by
  obtain ⟨-, length, joined⟩ := Condition.ofCalls_inTurn each accepted
  have filled : nodes ≠ [] := fun none =>
    given (List.length_eq_zero_iff.mp (length ▸ List.length_eq_zero_iff.mpr none))
  have gathered := Condition.ofCall_gathered given each gathers accepted
  have grouped : Condition.ofCalls [("where", [v])] = .ok [.group nodes .and] :=
    Condition.ofCalls_cons_ok.mpr ⟨_, [], gathered, rfl, rfl⟩
  intro apart atOnce
  have direct : site = .direct → apart.2 = [] := by
    rintro rfl
    exact congrArg Prod.snd (chainAll_direct opened accepted)
  refine ⟨length, gathered, ?_⟩
  obtain ⟨e, refused, refused'⟩ | ⟨predicates, having, predicates', having', added, added',
    regrouped⟩ := site_regrouped opened site filled accepted grouped
  · have one : apart = (b, [e]) := refused
    have other : atOnce = (b, [e]) := refused'
    rw [one] at direct
    rw [one, other]
    exact ⟨rfl, direct, fun _ => rfl, nofun⟩
  · have one : apart = (b.withConditions predicates having, []) := added
    have other : atOnce = (b.withConditions predicates' having', []) := added'
    rw [one, other]
    refine ⟨rfl, fun _ => rfl, fun refused => absurd rfl refused, fun _ later => ?_⟩
    rw [chainAll_withConditions opened, chainAll_withConditions opened]
    refine ⟨rfl, ?_⟩
    have whole := regrouped (b.chainAll later).1.statement (later.flatMap Call.conditions)
      (later.flatMap Call.groupConditions)
    rw [length] at whole
    exact Statement.Regrouped.asksAlike whole rfl filled joined

omit opened

def agedAdmins : List (List Value) :=
  [[.text "role", .text "admin"], [.text "age", .text ">", .int 18]]

def agedAdminsAtOnce : Value :=
  .list [.tuple [.text "role", .text "admin"], .list [.text "age", .text ">", .int 18]]

/-- A callback in a callback, with an alternative beside what is asked for. -/
def alternativeSite : Site :=
  .condition .or (.inside [("where", [.text "x", .int 0])] .and
    (.here [] [("or_where", [.text "c", .int 3])]) [])

/-- The builder around the site, with the calls put there and one more call after them. -/
def askedAround (calls : List (String × List Value)) : Builder :=
  let b : Builder := { statement := { table := some "t", predicates := [.raw "z" none .and] } }
  ((b.chainAll (alternativeSite.calls calls)).1.chainAll
    [.condition "or_where" [.text "d", .none]]).1

/-- The alternative stands outside the parentheses of the group and inside those of its callback. -/
theorem condition_shapes_ask_alike_of_alternative :
    ∃ (k : Compiler) (nodes : List Node), agedAdmins ≠ [] ∧
      (∀ args ∈ agedAdmins, Condition.IsComparison args) ∧
      Condition.Gathers agedAdmins agedAdminsAtOnce ∧
      Condition.ofCalls (Condition.inTurn agedAdmins) = .ok nodes ∧
      ((askedAround (Condition.inTurn agedAdmins)).preview k).toOption.map (·.1.sql) =
        some ("SELECT * FROM t WHERE z OR (x = :p1 AND (role = :p2 AND age > :p3 OR c = :p4)) " ++
          "OR d IS NULL") ∧
      ((askedAround [("where", [agedAdminsAtOnce])]).preview k).toOption.map (·.1.sql) =
        some ("SELECT * FROM t WHERE z OR (x = :p1 AND ((role = :p2 AND age > :p3) OR c = :p4)) " ++
          "OR d IS NULL") ∧
      (askedAround (Condition.inTurn agedAdmins)).AsksAlike nodes False
        (askedAround [("where", [agedAdminsAtOnce])]) := by
  let k : Compiler := { style := .named }
  let b : Builder := { statement := { table := some "t", predicates := [.raw "z" none .and] } }
  have each : ∀ args ∈ agedAdmins, Condition.IsComparison args := by
    simp [agedAdmins, Condition.IsComparison, Value.isMissing]
  have gathers : Condition.Gathers agedAdmins agedAdminsAtOnce := .list rfl
  have accepts : (Condition.ofCalls (Condition.inTurn agedAdmins)).toOption.isSome = true := by
    decide +kernel
  obtain ⟨nodes, read⟩ := Option.isSome_iff_exists.mp accepts
  have accepted := toOption_some.mp read
  have added : (b.chainAll (alternativeSite.calls (Condition.inTurn agedAdmins))).2 = [] :=
    List.isEmpty_iff.mp (by decide +kernel)
  obtain ⟨-, -, -, -, -, alike⟩ := condition_shapes_ask_alike (b := b) rfl (by decide) each gathers
    accepted alternativeSite
  have beside (s : Statement) : alternativeSite.Alone agedAdmins.length s = False := by
    simp [alternativeSite, Site.Alone, Condition.Place.Alone]
  have last := (alike added [.condition "or_where" [.text "d", .none]]).2
  rw [beside] at last
  exact ⟨k, nodes, by decide, each, gathers, accepted, by decide +kernel, by decide +kernel, last⟩

end Builder
end FluentSql
