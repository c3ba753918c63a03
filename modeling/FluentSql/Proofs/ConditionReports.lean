import FluentSql.Proofs.ConditionShapes

/-!
What reports on conditions reveal. Two calls that ask for the same condition with other values to
bind are both taken or both refused, and if they are refused, with the same report: a report holds
names, operators, types and counts, and none of the values. There is one exception. A mapping that
stands in a list of conditions, where a column with its value belongs, is shown as it is, with its
values; this is said apart from the rest.
-/

namespace FluentSql

/-- No container of values, or containers of as many values. -/
def Value.SameCount (v w : Value) : Prop := v.items?.map List.length = w.items?.map List.length

/-- The operator takes several values. -/
def Operator.TakesSeveral (operator : Operator) : Prop :=
  operator.takesList = true ∨ operator.takesRange = true

/-- Where several values are asked for: no containers, or containers of as many values. -/
def Value.SameCountFor (operator v w : Value) : Prop :=
  ∀ op, Operator.check Operator.all operator = .ok op → op.TakesSeveral → v.SameCount w

/-- Mappings with the same keys in order. -/
def Value.SameKeys (entries entries' : List (Value × Value)) : Prop :=
  entries.map (·.1) = entries'.map (·.1)

namespace Condition

/-- Entries of a list of conditions that differ in bind values: the last item of a comparison, and
the values of a mapping, which is no comparison. Whether there may be mappings is said by `mapped`.
-/
inductive EntryAlike (mapped : Prop) : Value → Value → Prop
  | same (entry : Value) : EntryAlike mapped entry entry
  | equality {entry entry' field v w : Value} (given : entry.sequence? = some [field, v])
      (given' : entry'.sequence? = some [field, w]) : EntryAlike mapped entry entry'
  | comparison {entry entry' field operator v w : Value}
      (given : entry.sequence? = some [field, operator, v])
      (given' : entry'.sequence? = some [field, operator, w])
      (count : Value.SameCountFor operator v w) : EntryAlike mapped entry entry'
  | map {entries entries' : List (Value × Value)} (may : mapped)
      (keys : Value.SameKeys entries entries') : EntryAlike mapped (.map entries) (.map entries')

/-- The one to three arguments that ask for a condition. -/
structure Arguments where
  first : Value
  second : Value := .missing
  third : Value := .missing

def Arguments.ofList? : List Value → Option Arguments
  | [first] => some { first }
  | [first, second] => some { first, second }
  | [first, second, third] => some { first, second, third }
  | _ => none

/-- Arguments that differ in bind values, where no callback is run. Arguments of no proper form are
known by their types. -/
inductive PlainAlike (mapped : Prop) : Arguments → Arguments → Prop
  | same (a : Arguments) : PlainAlike mapped a a
  | equality (field : String) {v w : Value} (given : v.isMissing = false)
      (given' : w.isMissing = false) :
      PlainAlike mapped { first := .text field, second := v } { first := .text field, second := w }
  | comparison (field : String) {operator v w : Value} (operated : operator.isMissing = false)
      (given : v.isMissing = false) (given' : w.isMissing = false)
      (count : Value.SameCountFor operator v w) :
      PlainAlike mapped ⟨.text field, operator, v⟩ ⟨.text field, operator, w⟩
  | list {entries entries' : List Value}
      (each : List.Forall₂ (EntryAlike mapped) entries entries') :
      PlainAlike mapped { first := .list entries } { first := .list entries' }
  | tuple {entries entries' : List Value}
      (each : List.Forall₂ (EntryAlike mapped) entries entries') :
      PlainAlike mapped { first := .tuple entries } { first := .tuple entries' }
  | map {entries entries' : List (Value × Value)} (keys : Value.SameKeys entries entries') :
      PlainAlike mapped { first := .map entries } { first := .map entries' }
  | unsupported {first second second' third third' : Value} (column : ∀ s, first ≠ .text s)
      (seconds : argumentType second = argumentType second')
      (thirds : argumentType third = argumentType third') :
      PlainAlike mapped ⟨first, second, third⟩ ⟨first, second', third'⟩

/-- Calls on a group that differ in bind values of conditions, at any depth of callbacks. -/
inductive CallsAlike (mapped : Prop) :
    List (String × List Value) → List (String × List Value) → Prop
  | nil : CallsAlike mapped [] []
  | same {calls calls' : List (String × List Value)} (call : String × List Value)
      (rest : CallsAlike mapped calls calls') : CallsAlike mapped (call :: calls) (call :: calls')
  | plain {calls calls' : List (String × List Value)} {name : String} {args args' : List Value}
      {a a' : Arguments} (named : (connectorOf? name).isSome)
      (given : Arguments.ofList? args = some a)
      (given' : Arguments.ofList? args' = some a') (alike : PlainAlike mapped a a')
      (rest : CallsAlike mapped calls calls') :
      CallsAlike mapped ((name, args) :: calls) ((name, args') :: calls')
  | nested {calls calls' inner inner' : List (String × List Value)} {name : String}
      (named : (connectorOf? name).isSome) (alike : CallsAlike mapped inner inner')
      (rest : CallsAlike mapped calls calls') :
      CallsAlike mapped ((name, [.callback inner]) :: calls) ((name, [.callback inner']) :: calls')

end Condition

/-- The same error; or, where that may be, two reports on a mapping in a list of conditions. -/
inductive Error.Alike (mapped : Prop) : Error → Error → Prop
  | same (e : Error) : Alike mapped e e
  | entry {entries entries' : List (Value × Value)} (may : mapped)
      (keys : Value.SameKeys entries entries') :
      Alike mapped (Refusal.entryNotSequence (.map entries)).toError
        (Refusal.entryNotSequence (.map entries')).toError

/-- Two results in a relation, or two errors that are alike. -/
inductive Except.Alike {α β : Type} (mapped : Prop) (r : α → β → Prop) :
    Except Error α → Except Error β → Prop
  | ok {a : α} {b : β} (related : r a b) : Alike mapped r (.ok a) (.ok b)
  | error {e e' : Error} (alike : e.Alike mapped e') : Alike mapped r (.error e) (.error e')

namespace Except.Alike

variable {α β γ δ : Type} {mapped : Prop} {r : α → β → Prop} {q : γ → δ → Prop}

theorem refused (e : Error) : Alike mapped r (.error e) (.error e) := .error (.same e)

theorem of_eq {r : α → α → Prop} (refl : ∀ a, r a a) {x y : Except Error α} (h : x = y) :
    Alike mapped r x y := by
  subst h
  cases x with
  | ok a => exact .ok (refl a)
  | error e => exact refused e

theorem bind {x : Except Error α} {y : Except Error β} {f : α → Except Error γ}
    {g : β → Except Error δ} (h : Alike mapped r x y)
    (hfg : ∀ a b, r a b → Alike mapped q (f a) (g b)) : Alike mapped q (x >>= f) (y >>= g) := by
  cases h with
  | ok related => exact hfg _ _ related
  | error alike => exact .error alike

/-- Results that are made one by one of related items are as many on both sides. -/
theorem mapM {s : γ → δ → Prop} {f : γ → Except Error α} {g : δ → Except Error β}
    (each : ∀ a b, s a b → Alike mapped r (f a) (g b)) {xs : List γ} {ys : List δ}
    (h : List.Forall₂ s xs ys) : Alike mapped (List.Forall₂ r) (xs.mapM f) (ys.mapM g) := by
  induction h with
  | nil => exact .ok .nil
  | cons first _ ih =>
      rw [List.mapM_cons, List.mapM_cons]
      exact (each _ _ first).bind fun _ _ ha => ih.bind fun _ _ has => .ok (.cons ha has)

end Except.Alike

theorem Value.SameCount.cases {v w : Value} (h : v.SameCount w) :
    v.items? = Option.none ∧ w.items? = Option.none ∨
      ∃ xs ys, v.items? = some xs ∧ w.items? = some ys ∧ xs.length = ys.length := by
  rw [SameCount] at h
  cases hv : v.items? <;> cases hw : w.items? <;> simp_all

open Except.Alike in
/-- An operand is refused for its form and its count alone. -/
theorem Operand.check_counted {mapped : Prop} (operator : Operator) (field : Value) {v w : Value}
    (count : v.SameCount w) :
    Except.Alike mapped (fun _ _ => True) (check operator field v) (check operator field w) := by
  obtain ⟨hv, hw⟩ | ⟨xs, ys, hv, hw, lengths⟩ := count.cases
  · simp only [check, hv, hw]
    split
    · exact refused _
    · split
      · exact refused _
      · exact .ok trivial
  · simp only [check, hv, hw]
    split
    · match xs, ys, lengths with
      | [], [], _ => exact refused _
      | _ :: _, _ :: _, _ => exact .ok trivial
    · split
      · match xs, ys, lengths with
        | [], [], _ | [_], [_], _ => exact refused _
        | [_, _], [_, _], _ => exact .ok trivial
        | _ :: _ :: _ :: _, _ :: _ :: _ :: _, lengths =>
            dsimp only
            rw [lengths]
            exact refused _
      · exact .ok trivial

theorem Operand.check_alike {mapped : Prop} (operator : Operator) (field : Value) {v w : Value}
    (count : operator.TakesSeveral → v.SameCount w) :
    Except.Alike mapped (fun _ _ => True) (check operator field v) (check operator field w) := by
  by_cases several : operator.TakesSeveral
  · exact check_counted operator field (count several)
  · obtain ⟨list, range⟩ := not_or.mp several
    rw [check, check, if_neg list, if_neg range, if_neg list, if_neg range]
    exact .ok trivial

/-- Nothing is asked of two nodes. -/
abbrev Node.Any (_ _ : Node) : Prop := True

namespace Node

variable {mapped : Prop} {c : Connector} {field operator v w : Value}

theorem ofComparison_alike
    (operands : ∀ op, Operator.check Operator.all operator = .ok op →
      Except.Alike mapped (fun _ _ => True) (Operand.check op field v) (Operand.check op field w)) :
    Except.Alike mapped Any (ofComparison field operator v c)
      (ofComparison field operator w c) := by
  simp only [ofComparison]
  cases operated : Operator.check Operator.all operator with
  | error e => exact .refused e
  | ok op =>
      refine (operands op operated).bind fun _ _ _ => ?_
      cases Identifier.check "field" field with
      | error e => exact .refused e
      | ok name => exact .ok trivial

theorem ofEquality_alike (field v w : Value) :
    Except.Alike mapped Any (ofEquality field v c) (ofEquality field w c) := by
  refine ofComparison_alike fun op operated => ?_
  cases operated
  exact .ok trivial

theorem ofItems_alike {items items' : List Node} (each : List.Forall₂ Any items items') :
    Except.Alike mapped Any (ofItems items c) (ofItems items' c) := by
  cases each with
  | nil => exact .refused _
  | cons => exact .ok trivial

end Node

namespace Condition

variable {mapped : Prop} {c : Connector}

theorem ofEntry_alike {entry entry' : Value} (h : EntryAlike mapped entry entry') :
    Except.Alike mapped Node.Any (ofEntry entry) (ofEntry entry') := by
  cases h with
  | same => exact .of_eq (fun _ => trivial) rfl
  | equality given given' =>
      simp only [ofEntry, given, given', ofEntryItems]
      exact Node.ofEquality_alike _ _ _
  | comparison given given' count =>
      simp only [ofEntry, given, given', ofEntryItems]
      exact Node.ofComparison_alike fun op read => Operand.check_alike op _ (count op read)
  | map may keys => exact .error (.entry may keys)

theorem ofEntries_alike {entries entries' : List Value}
    (each : List.Forall₂ (EntryAlike mapped) entries entries') :
    Except.Alike mapped Node.Any (ofEntries entries c) (ofEntries entries' c) := by
  have nodes : Except.Alike mapped (List.Forall₂ Node.Any) (entries.mapM ofEntry)
      (entries'.mapM ofEntry) := .mapM (fun _ _ h => ofEntry_alike h) each
  exact nodes.bind fun _ _ => Node.ofItems_alike

theorem ofMap_alike {entries entries' : List (Value × Value)}
    (keys : Value.SameKeys entries entries') :
    Except.Alike mapped Node.Any (ofMap entries c) (ofMap entries' c) := by
  have each : List.Forall₂ (fun a b : Value × Value => a.1 = b.1) entries entries' := by
    rw [Value.SameKeys, ← List.forall₂_eq_eq_eq, List.forall₂_map_left_iff,
      List.forall₂_map_right_iff] at keys
    exact keys
  refine (Except.Alike.mapM (fun a b same => ?_) each).bind fun _ _ => Node.ofItems_alike
  obtain ⟨field, v⟩ := a
  obtain ⟨field', w⟩ := b
  cases same
  exact Node.ofEquality_alike field v w

def Arguments.resolve (a : Arguments) (c : Connector) : Except Error Node :=
  Condition.resolve a.first a.second a.third c

theorem isMissing_iff {v : Value} : v.isMissing = true ↔ v = .missing := by
  cases v <;> simp [Value.isMissing]

theorem argumentType_missing {v : Value} : argumentType v = "-" ↔ v.isMissing = true := by
  cases v <;> simp [argumentType, Value.isMissing, Value.typeName]

theorem ofArguments_unsupported {first : Value} (column : ∀ s, first ≠ .text s)
    (second third : Value) :
    ofArguments first second third c = unsupported first second third := by
  cases first with
  | text s => exact absurd rfl (column s)
  | _ => rfl

/-- Arguments of no proper form are refused for their types. -/
theorem resolve_unsupported {first second second' third third' : Value}
    (column : ∀ s, first ≠ .text s) (seconds : argumentType second = argumentType second')
    (thirds : argumentType third = argumentType third') :
    resolve first second third c = resolve first second' third' c := by
  have same {v w : Value} (types : argumentType v = argumentType w) : v.isMissing = w.isMissing :=
    Bool.eq_iff_iff.mpr (by rw [← argumentType_missing, types, argumentType_missing])
  by_cases given : (second.isMissing && third.isMissing) = false
  · have given' : (second'.isMissing && third'.isMissing) = false := by
      rw [← same seconds, ← same thirds, given]
    rw [resolve_arguments given, resolve_arguments given', ofArguments_unsupported column,
      ofArguments_unsupported column, unsupported, unsupported, seconds, thirds]
  · rw [Bool.not_eq_false, Bool.and_eq_true] at given
    have given' : second'.isMissing = true ∧ third'.isMissing = true := by
      rwa [← same seconds, ← same thirds]
    rw [isMissing_iff.mp given.1, isMissing_iff.mp given.2, isMissing_iff.mp given'.1,
      isMissing_iff.mp given'.2]

theorem resolve_plain {a a' : Arguments} (h : PlainAlike mapped a a') :
    Except.Alike mapped Node.Any (a.resolve c) (a'.resolve c) := by
  cases h with
  | same => exact .of_eq (fun _ => trivial) rfl
  | equality field given given' =>
      simp only [Arguments.resolve, resolve, ofArguments, given, given']
      exact Node.ofEquality_alike _ _ _
  | comparison field operated given given' count =>
      simp only [Arguments.resolve, resolve, ofArguments, operated, given, given']
      exact Node.ofComparison_alike fun op read => Operand.check_alike op _ (count op read)
  | list each =>
      cases each with
      | nil => exact .refused _
      | cons first rest => exact ofEntries_alike (.cons first rest)
  | tuple each =>
      cases each with
      | nil => exact .refused _
      | cons first rest => exact ofEntries_alike (.cons first rest)
  | @map entries entries' keys =>
      cases entries with
      | nil =>
          cases entries' with
          | nil => exact .refused _
          | cons => cases keys
      | cons =>
          cases entries' with
          | nil => cases keys
          | cons => exact ofMap_alike keys
  | unsupported column seconds thirds =>
      exact .of_eq (fun _ => trivial) (resolve_unsupported column seconds thirds)

theorem ofCall_asked_by {name : String} {args : List Value} {a : Arguments} {c : Connector}
    (named : connectorOf? name = some c) (given : Arguments.ofList? args = some a) :
    ofCall name args = a.resolve c := by
  match args, given with
  | [_], rfl | [_, _], rfl | [_, _, _], rfl => simp only [ofCall, named]; rfl

theorem ofCallback_alike {items items' : List Node} (each : List.Forall₂ Node.Any items items') :
    Except.Alike mapped Node.Any (ofCallback items c) (ofCallback items' c) := by
  cases each with
  | nil => exact .refused _
  | cons => exact .ok trivial

theorem ofCalls_cons (name : String) (args : List Value) (rest : List (String × List Value)) :
    ofCalls ((name, args) :: rest) =
      ofCall name args >>= fun node => ofCalls rest >>= fun nodes => .ok (node :: nodes) := by
  rw [ofCalls]
  cases ofCall name args with
  | error e => rfl
  | ok node => cases ofCalls rest <;> rfl

/-- The calls of two callbacks, one after the other. -/
theorem ofCalls_alike {calls calls' : List (String × List Value)}
    (h : CallsAlike mapped calls calls') :
    Except.Alike mapped (List.Forall₂ Node.Any) (ofCalls calls) (ofCalls calls') := by
  have next {name : String} {args args' : List Value} {calls calls' : List (String × List Value)}
      (first : Except.Alike mapped Node.Any (ofCall name args) (ofCall name args'))
      (rest : Except.Alike mapped (List.Forall₂ Node.Any) (ofCalls calls) (ofCalls calls')) :
      Except.Alike mapped (List.Forall₂ Node.Any) (ofCalls ((name, args) :: calls))
        (ofCalls ((name, args') :: calls')) := by
    rw [ofCalls_cons, ofCalls_cons]
    exact first.bind fun _ _ node => rest.bind fun _ _ nodes => .ok (.cons node nodes)
  induction h with
  | nil => exact .ok .nil
  | same call rest ih => exact next (.of_eq (fun _ => trivial) rfl) ih
  | plain named given given' alike rest ih =>
      obtain ⟨c, named⟩ := Option.isSome_iff_exists.mp named
      refine next ?_ ih
      rw [ofCall_asked_by named given, ofCall_asked_by named given']
      exact resolve_plain alike
  | nested named alike rest inner ih =>
      obtain ⟨c, named⟩ := Option.isSome_iff_exists.mp named
      refine next ?_ ih
      simp only [ofCall, named, resolve_callback]
      exact inner.bind fun _ _ => ofCallback_alike

/-- Arguments that differ in bind values: no callback is run, or what callbacks ask for does. -/
inductive Arguments.Alike (mapped : Prop) : Arguments → Arguments → Prop
  | plain {a a' : Arguments} (alike : PlainAlike mapped a a') : Alike mapped a a'
  | callback {calls calls' : List (String × List Value)} (alike : CallsAlike mapped calls calls') :
      Alike mapped { first := .callback calls } { first := .callback calls' }

theorem resolve_alike {a a' : Arguments} (h : a.Alike mapped a') :
    Except.Alike mapped Node.Any (a.resolve c) (a'.resolve c) := by
  cases h with
  | plain alike => exact resolve_plain alike
  | callback alike =>
      simp only [Arguments.resolve, resolve_callback]
      exact (ofCalls_alike alike).bind fun _ _ => ofCallback_alike

end Condition

/-- Calls for a condition, of rows or of groups, that differ in bind values. -/
inductive Call.Alike (mapped : Prop) : Call → Call → Prop
  | condition {name : String} {args args' : List Value} {a a' : Condition.Arguments}
      (named : (Condition.connectorOf? name).isSome)
      (given : Condition.Arguments.ofList? args = some a)
      (given' : Condition.Arguments.ofList? args' = some a') (alike : a.Alike mapped a') :
      Alike mapped (.condition name args) (.condition name args')
  | having (connector : Connector) {a a' : Condition.Arguments} (alike : a.Alike mapped a') :
      Alike mapped (.having connector a.first a.second a.third)
        (.having connector a'.first a'.second a'.third)

/-- Complaints that tell the same: there is none, or both are alike. -/
inductive Call.FaultsAlike (mapped : Prop) : Option Error → Option Error → Prop
  | none : FaultsAlike mapped none none
  | some {e e' : Error} (alike : e.Alike mapped e') : FaultsAlike mapped (some e) (some e')

namespace Call

variable {mapped : Prop}

theorem orKeep_alike (s s' : Statement) {x y : Except Error Node}
    (add : Statement → Node → Statement) (h : Except.Alike mapped Node.Any x y) :
    FaultsAlike mapped (orKeep s (x >>= fun node => .ok (add s node))).2
      (orKeep s' (y >>= fun node => .ok (add s' node))).2 := by
  cases h with
  | ok => exact .none
  | error alike => exact .some alike

theorem apply_alike (s s' : Statement) {c c' : Call} (h : c.Alike mapped c') :
    FaultsAlike mapped (c.apply s).2 (c'.apply s').2 := by
  cases h with
  | @condition name args args' a a' named given given' alike =>
      obtain ⟨c, named⟩ := Option.isSome_iff_exists.mp named
      simp only [apply, Condition.ofCall_asked_by named given,
        Condition.ofCall_asked_by named given']
      exact orKeep_alike s s' (fun s node => { s with predicates := s.predicates ++ [node] })
        (Condition.resolve_alike alike)
  | having connector alike =>
      exact orKeep_alike s s' (fun s node => { s with having := s.having ++ [node] })
        (Condition.resolve_alike alike)

end Call

/-- Failures among alike errors differ in their messages at most. -/
theorem Error.Alike.failures {mapped : Prop} {e e' : Error} (h : e.Alike mapped e')
    {f f' : Failure} (failed : e = .failure f) (failed' : e' = .failure f') :
    f.code = f'.code ∧ f.details = f'.details ∧ f.cause = f'.cause := by
  cases h with
  | same =>
      cases failed.symm.trans failed'
      exact ⟨rfl, rfl, rfl⟩
  | @entry entries entries' =>
      have shown {entries : List (Value × Value)} {f : Failure}
          (failed : (Refusal.entryNotSequence (.map entries)).toError = .failure f) :
          f = (Refusal.entryNotSequence (.map entries)).toFailure := by
        rw [Refusal.toError] at failed
        split at failed
        · cases failed
          rfl
        · cases failed
      cases shown failed
      cases shown failed'
      exact ⟨rfl, rfl, rfl⟩

namespace Builder

/-- Reports on conditions hide what is bound. Two calls for a condition that differ in bind values,
at any depth of callbacks, on builders that are both open or both used up, come to the same: both
are taken, or both are refused with the same error. Where mappings stand in a list of conditions,
both calls are still refused or neither is; but if such a mapping is the reason it is shown, and
then their reports have the same code and details, and messages of their own. -/
theorem condition_reports_hide_values (mapped : Prop) {b b' : Builder} {c c' : Call}
    (used : b.consumed = b'.consumed) (alike : c.Alike mapped c') :
    (¬ mapped → (b.chain c).2 = (b'.chain c').2) ∧
      Call.FaultsAlike mapped (b.chain c).2 (b'.chain c').2 ∧
      ∀ f f', (b.chain c).2 = some (.failure f) → (b'.chain c').2 = some (.failure f') →
        f.code = f'.code ∧ f.details = f'.details ∧ f.cause = f'.cause := by
  have faults : Call.FaultsAlike mapped (b.chain c).2 (b'.chain c').2 := by
    cases given : b.consumed with
    | true =>
        rw [chain_consumed given, chain_consumed (used ▸ given)]
        exact .some (.same _)
    | false =>
        rw [chain_open given, chain_open (used ▸ given)]
        exact Call.apply_alike _ _ alike
  refine ⟨fun unmapped => ?_, faults, fun f f' failed failed' => ?_⟩
  · generalize (b.chain c).2 = fault, (b'.chain c').2 = fault' at faults
    cases faults with
    | none => rfl
    | some alike =>
        cases alike with
        | same => rfl
        | entry may => exact absurd may unmapped
  · rw [failed, failed'] at faults
    cases faults with
    | some alike => exact alike.failures rfl rfl

theorem condition_reports_hide_values_of_operator :
    let c (secret : String) : Call := .condition "where"
      [.callback [("where", [.text "password", .text "~", .text secret])]]
    (c "hunter2").Alike False (c "swordfish") ∧
      (chain {} (c "hunter2")).2 = (chain {} (c "swordfish")).2 ∧
      (chain {} (c "hunter2")).2.map Error.kind = some "BUILD_INVALID_OPERATOR" := by
  intro c
  have inner : Condition.CallsAlike False
      [("where", [.text "password", .text "~", .text "hunter2"])]
      [("where", [.text "password", .text "~", .text "swordfish"])] :=
    .plain rfl rfl rfl (.comparison "password" rfl rfl rfl fun _ _ _ => rfl) .nil
  have alike : (c "hunter2").Alike False (c "swordfish") :=
    .condition rfl rfl rfl (.callback inner)
  have used : ({} : Builder).consumed = ({} : Builder).consumed := rfl
  obtain ⟨same, -⟩ := condition_reports_hide_values False used alike
  exact ⟨alike, same id, by decide +kernel⟩

/-- A mapping in a list of conditions is shown with its values: two calls that differ in nothing
else are refused with messages of their own. -/
theorem mapping_among_conditions_is_shown :
    let c (secret : String) : Call :=
      .condition "where" [.list [.map [(.text "password", .text secret)]]]
    (c "hunter2").Alike True (c "swordfish") ∧
      (chain {} (c "hunter2")).2 ≠ (chain {} (c "swordfish")).2 := by
  refine ⟨.condition rfl rfl rfl (.plain (.list (.cons (.map trivial rfl) .nil))), fun same => ?_⟩
  have texts := congrArg (Option.map Trace.complaint) same
  exact absurd texts (by decide +kernel)

end Builder
end FluentSql
