import FluentSql.Clause.Statement
import FluentSql.Proofs.Outcome

/-!
What each class of clauses makes of its fields. A clause is accepted exactly when each of its fields
is, and it consists of the parts that the fields give.
-/

namespace FluentSql

variable {data : List (String × Value)}

/-- A field that is given is checked as it is. -/
theorem checkField_given {α : Type} {name : String} {absent : Checked α}
    {check : Value → Checked α} {v : Value} {a : α} (found : Fields.get? name data = some v)
    (passed : check v = .ok a) : checkField data name absent check = .ok a :=
  checkField_ok.mpr (.inl ⟨v, found, passed⟩)

namespace Node

variable {node : Node}

/-- The parts of a leaf. The operand is checked for the field as it was given. -/
structure LeafParts (data : List (String × Value)) (field : String) (operator : Operator)
    (operand : Operand) (c : Connector) : Prop where
  operated : Operator.check Operator.all
    ((Fields.get? "operator" data).getD (.text Operator.eq.text)) = .ok operator
  held : Operand.check operator ((Fields.get? "field" data).getD .none)
    ((Fields.get? "value" data).getD .none) = .ok operand
  kind : checkField data "kind" (.ok ()) (checkKind leafKind) = .ok ()
  named : checkField data "field" (.invalid [""])
    (fun v => .ofExcept (Identifier.check "field" v)) = .ok field
  joined : checkField data "connector" (.ok .and) checkConnector = .ok c

theorem leafOfFields_ok : leafOfFields data = .ok node ↔
    ∃ field operator operand c, LeafParts data field operator operand c ∧
      node = .leaf field operator operand c := by
  constructor
  · intro h
    obtain ⟨operator, operated, h⟩ := Checked.andThen_ok.mp h
    obtain ⟨operand, held, h⟩ := Checked.andThen_ok.mp h
    obtain ⟨_, c, hfield, joined, rfl⟩ := Checked.app_ok.mp h
    obtain ⟨_, field, hkind, named, rfl⟩ := Checked.app_ok.mp hfield
    obtain ⟨_, kind, rfl⟩ := Checked.map_ok.mp hkind
    exact ⟨field, operator, operand, c,
      ⟨Checked.ofExcept_ok.mp operated, Checked.ofExcept_ok.mp held, kind, named, joined⟩, rfl⟩
  · rintro ⟨field, operator, operand, c, parts, rfl⟩
    exact Checked.andThen_ok.mpr ⟨operator, Checked.ofExcept_ok.mpr parts.operated,
      Checked.andThen_ok.mpr ⟨operand, Checked.ofExcept_ok.mpr parts.held,
        Checked.app_ok.mpr ⟨_, c, Checked.app_ok.mpr ⟨_, field,
          Checked.map_ok.mpr ⟨(), parts.kind, rfl⟩, parts.named, rfl⟩, parts.joined, rfl⟩⟩⟩

/-- The parts of a raw fragment. -/
structure RawParts (data : List (String × Value)) (sql : String) (params : Option FragmentParams)
    (c : Connector) : Prop where
  kind : checkField data "kind" (.ok ()) (checkKind rawKind) = .ok ()
  read : checkField data "sql" (.invalid [""]) (fun v => .ofExcept (checkFragment v)) = .ok sql
  held : checkField data "params" (.ok none) checkParams = .ok params
  joined : checkField data "connector" (.ok .and) checkConnector = .ok c

theorem rawOfFields_ok : rawOfFields data = .ok node ↔
    ∃ sql params c, RawParts data sql params c ∧ node = .raw sql params c := by
  constructor
  · intro h
    obtain ⟨_, c, hparams, joined, rfl⟩ := Checked.app_ok.mp h
    obtain ⟨_, params, hsql, held, rfl⟩ := Checked.app_ok.mp hparams
    obtain ⟨_, sql, hkind, read, rfl⟩ := Checked.app_ok.mp hsql
    obtain ⟨_, kind, rfl⟩ := Checked.map_ok.mp hkind
    exact ⟨sql, params, c, ⟨kind, read, held, joined⟩, rfl⟩
  · rintro ⟨sql, params, c, parts, rfl⟩
    exact Checked.app_ok.mpr ⟨_, c, Checked.app_ok.mpr ⟨_, params, Checked.app_ok.mpr ⟨_, sql,
      Checked.map_ok.mpr ⟨(), parts.kind, rfl⟩, parts.read, rfl⟩, parts.held, rfl⟩,
      parts.joined, rfl⟩

/-- The parts of a group, of which the items were checked before. -/
structure GroupParts (data : List (String × Value)) (checked : Option (Checked (List Node)))
    (items : List Node) (c : Connector) : Prop where
  kind : checkField data "kind" (.ok ()) (checkKind groupKind) = .ok ()
  inner : checked = some (.ok items)
  given : items ≠ []
  joined : checkField data "connector" (.ok .and) checkConnector = .ok c

theorem groupOfFields_ok {checked : Option (Checked (List Node))} :
    groupOfFields data checked = .ok node ↔
      ∃ items c, GroupParts data checked items c ∧ node = .group items c := by
  constructor
  · intro h
    obtain ⟨_, c, hitems, joined, rfl⟩ := Checked.app_ok.mp h
    obtain ⟨_, items, hkind, hchecked, rfl⟩ := Checked.app_ok.mp hitems
    obtain ⟨_, kind, rfl⟩ := Checked.map_ok.mp hkind
    obtain ⟨items', inner, hchecked⟩ := Checked.andThen_ok.mp hchecked
    split at hchecked
    · cases hchecked
    · next given =>
        cases hchecked
        have nonempty : items ≠ [] := fun none => given (List.isEmpty_iff.mpr none)
        cases checked with
        | none =>
            cases inner
            exact absurd rfl nonempty
        | some checked =>
            have inner := congrArg some (Checked.inField_ok.mp inner)
            exact ⟨items, c, ⟨kind, inner, nonempty, joined⟩, rfl⟩
  · rintro ⟨items, c, parts, rfl⟩
    obtain rfl := parts.inner
    have nonempty : ¬ items.isEmpty = true := fun none => parts.given (List.isEmpty_iff.mp none)
    exact Checked.app_ok.mpr ⟨_, c, Checked.app_ok.mpr ⟨_, items,
      Checked.map_ok.mpr ⟨(), parts.kind, rfl⟩,
      Checked.andThen_ok.mpr ⟨items, rfl, if_neg nonempty⟩, rfl⟩, parts.joined, rfl⟩

end Node

namespace Join

variable {j : Join}

/-- The parts of a join. -/
structure Parts (data : List (String × Value)) (kind : JoinKind) (table : String)
    (text left : Option String) (operator : Option Operator) (right : Option String) : Prop where
  kind : checkField data "kind" (.ok .inner) checkKind = .ok kind
  table : checkField data "table" (.invalid [""]) (fun v => .ofExcept (TableReference.check v)) =
    .ok table
  text : checkField data "condition" (.ok none) (fun v => .ofExcept (checkCondition v)) = .ok text
  left : checkField data "left_field" (.ok none)
    (fun v => .ofExcept (checkSide "left_field" v)) = .ok left
  operator : checkField data "operator" (.ok none) (fun v => .ofExcept (checkOperator v)) =
    .ok operator
  right : checkField data "right_field" (.ok none)
    (fun v => .ofExcept (checkSide "right_field" v)) = .ok right

theorem ofFields_ok : ofFields data = .ok j ↔
    ∃ kind table text left operator right,
      Parts data kind table text left operator right ∧
        ofParts kind table text left operator right = .ok j := by
  constructor
  · intro h
    obtain ⟨_, parts, h⟩ := Checked.andThen_ok.mp h
    obtain ⟨_, right, parts₁, hright, rfl⟩ := Checked.app_ok.mp parts
    obtain ⟨_, operator, parts₂, hoperator, rfl⟩ := Checked.app_ok.mp parts₁
    obtain ⟨_, left, parts₃, hleft, rfl⟩ := Checked.app_ok.mp parts₂
    obtain ⟨_, text, parts₄, htext, rfl⟩ := Checked.app_ok.mp parts₃
    obtain ⟨_, table, parts₅, htable, rfl⟩ := Checked.app_ok.mp parts₄
    obtain ⟨kind, hkind, rfl⟩ := Checked.map_ok.mp parts₅
    exact ⟨kind, table, text, left, operator, right,
      ⟨hkind, htable, htext, hleft, hoperator, hright⟩, Checked.ofExcept_ok.mp h⟩
  · rintro ⟨kind, table, text, left, operator, right, parts, formed⟩
    have read := Checked.map_ok (f := ofParts).mpr ⟨_, parts.kind, rfl⟩
    replace read := Checked.app_ok.mpr ⟨_, _, read, parts.table, rfl⟩
    replace read := Checked.app_ok.mpr ⟨_, _, read, parts.text, rfl⟩
    replace read := Checked.app_ok.mpr ⟨_, _, read, parts.left, rfl⟩
    replace read := Checked.app_ok.mpr ⟨_, _, read, parts.operator, rfl⟩
    replace read := Checked.app_ok.mpr ⟨_, _, read, parts.right, rfl⟩
    exact Checked.andThen_ok.mpr ⟨_, read, Checked.ofExcept_ok.mpr formed⟩

end Join

namespace Entry

variable {clause : String} {column raw : Option String} {params : Option FragmentParams}

/-- The parts of an entry. -/
structure Parts (clause : String) (data : List (String × Value)) (column raw : Option String)
    (params : Option FragmentParams) : Prop where
  column : checkField data "column" (.ok none) (fun v => .ofExcept (checkColumn v)) = .ok column
  raw : checkField data "raw" (.ok none) (fun v => .ofExcept (checkRaw clause v)) = .ok raw
  params : checkField data "params" (.ok none) Node.checkParams = .ok params

theorem partsOfFields_iff :
    partsOfFields clause data = .ok (column, raw, params) ↔
      Parts clause data column raw params := by
  constructor
  · intro h
    obtain ⟨_, params, before, hparams, parts⟩ := Checked.app_ok.mp h
    obtain ⟨_, raw, first, hraw, rfl⟩ := Checked.app_ok.mp before
    obtain ⟨column, hcolumn, rfl⟩ := Checked.map_ok.mp first
    cases parts
    exact ⟨hcolumn, hraw, hparams⟩
  · intro parts
    exact Checked.app_ok.mpr ⟨_, params, Checked.app_ok.mpr ⟨_, raw, Checked.map_ok.mpr
      ⟨column, parts.column, rfl⟩, parts.raw, rfl⟩, parts.params, rfl⟩

end Entry

theorem GroupEntry.ofFields_ok {e : Entry} : ofFields data = .ok e ↔
    ∃ column raw params, Entry.Parts clause data column raw params ∧
      Entry.ofParts entryName column raw params = .ok e := by
  constructor
  · intro h
    obtain ⟨⟨column, raw, params⟩, parts, formed⟩ := Checked.andThen_ok.mp h
    exact ⟨column, raw, params, Entry.partsOfFields_iff.mp parts, Checked.ofExcept_ok.mp formed⟩
  · rintro ⟨column, raw, params, parts, formed⟩
    exact Checked.andThen_ok.mpr ⟨_, Entry.partsOfFields_iff.mpr parts,
      Checked.ofExcept_ok.mpr formed⟩

theorem OrderEntry.ofFields_ok {e : OrderEntry} : ofFields data = .ok e ↔
    ∃ column raw params, Entry.Parts clause data column raw params ∧
      checkField data "direction" (.ok .ascending) (fun v => .ofExcept (checkDirection v)) =
        .ok e.direction ∧
      Entry.ofParts entryName column raw params = .ok e.toEntry := by
  constructor
  · intro h
    obtain ⟨⟨⟨column, raw, params⟩, direction⟩, both, h⟩ := Checked.andThen_ok.mp h
    obtain ⟨_, _, first, directed, pair⟩ := Checked.app_ok.mp both
    obtain ⟨_, parts, rfl⟩ := Checked.map_ok.mp first
    cases pair
    obtain ⟨entry, formed, rfl⟩ := Checked.map_ok.mp h
    exact ⟨column, raw, params, Entry.partsOfFields_iff.mp parts, directed,
      Checked.ofExcept_ok.mp formed⟩
  · rintro ⟨column, raw, params, parts, directed, formed⟩
    exact Checked.andThen_ok.mpr ⟨((column, raw, params), e.direction),
      Checked.app_ok.mpr ⟨_, e.direction, Checked.map_ok.mpr
        ⟨_, Entry.partsOfFields_iff.mpr parts, rfl⟩, directed, rfl⟩,
      Checked.map_ok.mpr ⟨e.toEntry, Checked.ofExcept_ok.mpr formed, rfl⟩⟩

namespace Statement

/-- The parts of a statement are what the fields that are checked for them give. -/
structure ReadFrom (data : List (String × Value)) (s : Statement) : Prop where
  operation : checkField data "operation" (.ok none)
    (optional fun v => v.asText?.bind Operation.ofText?) = .ok s.operation
  table : checkField data "table" (.ok none) (optional Value.asText?) = .ok s.table
  columns : checkField data "columns" (.ok []) (checkItems fun v => .ofOption v.asText?) =
    .ok s.columns
  distinct : checkField data "distinct" (.ok false) (fun v => .ofOption v.asBool?) = .ok s.distinct
  values : checkField data "values" (.ok []) (fun v => .ofOption v.asFields?) = .ok s.values
  joins : checkField data "joins" (.ok []) (checkItems Join.check) = .ok s.joins
  predicates : checkField data "predicates" (.ok []) Node.checkList = .ok s.predicates
  having : checkField data "having" (.ok []) Node.checkList = .ok s.having
  grouping : checkField data "grouping" (.ok []) (checkItems GroupEntry.check) = .ok s.grouping
  ordering : checkField data "ordering" (.ok []) (checkItems OrderEntry.check) = .ok s.ordering
  limit : checkField data "limit" (.ok none) (optional Value.asNat?) = .ok s.limit
  offset : checkField data "offset" (.ok none) (optional Value.asNat?) = .ok s.offset
  rawSql : checkField data "raw_sql" (.ok none) (optional Value.asText?) = .ok s.rawSql
  rawParams : checkField data "raw_params" (.ok none) (fun v => .ofExcept (Params.check v)) =
    .ok s.rawParams
  unconditional : checkField data "unconditional" (.ok false) (fun v => .ofOption v.asBool?) =
    .ok s.unconditional

variable {s : Statement}

theorem ofFields_ok : ofFields data = .ok s ↔ ReadFrom data s := by
  constructor
  · intro h
    -- the checks of the fields are taken off from the last one
    obtain ⟨_, _, h₁, unconditional, rfl⟩ := Checked.app_ok.mp h
    obtain ⟨_, _, h₂, rawParams, rfl⟩ := Checked.app_ok.mp h₁
    obtain ⟨_, _, h₃, rawSql, rfl⟩ := Checked.app_ok.mp h₂
    obtain ⟨_, _, h₄, offset, rfl⟩ := Checked.app_ok.mp h₃
    obtain ⟨_, _, h₅, limit, rfl⟩ := Checked.app_ok.mp h₄
    obtain ⟨_, _, h₆, ordering, rfl⟩ := Checked.app_ok.mp h₅
    obtain ⟨_, _, h₇, grouping, rfl⟩ := Checked.app_ok.mp h₆
    obtain ⟨_, _, h₈, having, rfl⟩ := Checked.app_ok.mp h₇
    obtain ⟨_, _, h₉, predicates, rfl⟩ := Checked.app_ok.mp h₈
    obtain ⟨_, _, h₁₀, joins, rfl⟩ := Checked.app_ok.mp h₉
    obtain ⟨_, _, h₁₁, values, rfl⟩ := Checked.app_ok.mp h₁₀
    obtain ⟨_, _, h₁₂, distinct, rfl⟩ := Checked.app_ok.mp h₁₁
    obtain ⟨_, _, h₁₃, columns, rfl⟩ := Checked.app_ok.mp h₁₂
    obtain ⟨_, _, h₁₄, table, rfl⟩ := Checked.app_ok.mp h₁₃
    obtain ⟨_, operation, rfl⟩ := Checked.map_ok.mp h₁₄
    exact ⟨operation, table, columns, distinct, values, joins, predicates, having, grouping,
      ordering, limit, offset, rawSql, rawParams, unconditional⟩
  · intro h
    have read := Checked.map_ok (f := Statement.mk).mpr ⟨_, h.operation, rfl⟩
    replace read := Checked.app_ok.mpr ⟨_, _, read, h.table, rfl⟩
    replace read := Checked.app_ok.mpr ⟨_, _, read, h.columns, rfl⟩
    replace read := Checked.app_ok.mpr ⟨_, _, read, h.distinct, rfl⟩
    replace read := Checked.app_ok.mpr ⟨_, _, read, h.values, rfl⟩
    replace read := Checked.app_ok.mpr ⟨_, _, read, h.joins, rfl⟩
    replace read := Checked.app_ok.mpr ⟨_, _, read, h.predicates, rfl⟩
    replace read := Checked.app_ok.mpr ⟨_, _, read, h.having, rfl⟩
    replace read := Checked.app_ok.mpr ⟨_, _, read, h.grouping, rfl⟩
    replace read := Checked.app_ok.mpr ⟨_, _, read, h.ordering, rfl⟩
    replace read := Checked.app_ok.mpr ⟨_, _, read, h.limit, rfl⟩
    replace read := Checked.app_ok.mpr ⟨_, _, read, h.offset, rfl⟩
    replace read := Checked.app_ok.mpr ⟨_, _, read, h.rawSql, rfl⟩
    replace read := Checked.app_ok.mpr ⟨_, _, read, h.rawParams, rfl⟩
    exact Checked.app_ok.mpr ⟨_, _, read, h.unconditional, rfl⟩

/-- What every checked item has, the items of a checked field have. -/
theorem items_hold {α : Type} {check : Value → Checked α} {P : α → Prop}
    (hcheck : ∀ v a, check v = .ok a → P a) {name : String} {as : List α}
    (h : checkField data name (.ok []) (checkItems check) = .ok as) : ∀ a ∈ as, P a := by
  refine checkField_holds (P := fun as => ∀ a ∈ as, P a) (List.forall_mem_nil _)
    (fun v as checked => ?_) h
  simp only [checkItems] at checked
  split at checked
  · exact Checked.all_ok hcheck checked
  · cases checked

end Statement

end FluentSql
