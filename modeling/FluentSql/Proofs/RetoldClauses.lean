import FluentSql.Proofs.CanonicalReferences
import FluentSql.Proofs.CheckedNames
import FluentSql.Proofs.RetoldNodes

/-!
Joins and the entries of groupings and orderings, told again. Each has fields for both of its forms,
and those of the other form hold nothing; what is made of the fields is what was told.
-/

namespace FluentSql

def Join.toFields (j : Join) : List (String × Value) :=
  [("kind", .text j.kind.text), ("table", .text j.table)] ++
    match j.condition with
    | .text condition =>
      [("condition", .text condition), ("left_field", .none), ("operator", .none),
        ("right_field", .none)]
    | .columns left operator right =>
      [("condition", .none), ("left_field", .text left), ("operator", .text operator.text),
        ("right_field", .text right)]

inductive JoinCondition.Canonical : JoinCondition → Prop
  | columns {left right : String} {operator : Operator} (allowed : operator ∈ Operator.comparisons)
      (normal : Operator.IsNormal operator.text) : Canonical (.columns left operator right)
  | text {condition : String} (trimmed : Text.IsTrimmed condition) : Canonical (.text condition)

theorem TableReference.check_again {v : Value} {reference : String} (h : check v = .ok reference) :
    check (.text reference) = .ok reference := by
  obtain ⟨t, split, h⟩ := ok_bind_iff.mp h
  cases h
  exact ok_bind_iff.mpr ⟨t, split_toText split, rfl⟩

namespace Join

variable {data : List (String × Value)} {j : Join}

theorem checkCondition_trimmed {v : Value} {text : Option String}
    (h : checkCondition v = .ok text) : ∀ condition ∈ text, Text.IsTrimmed condition := by
  intro condition member
  cases v with
  | none =>
      cases h
      cases member
  | text s =>
      rw [checkCondition] at h
      obtain ⟨trimmed, rfl⟩ := Text.isTrimmed_of_read h
      cases member
      exact trimmed
  | _ => cases h

theorem checkCondition_again {condition : String} (h : Text.IsTrimmed condition) :
    checkCondition (.text condition) = .ok (some condition) := by
  rw [checkCondition, if_neg (Bool.eq_false_iff.mp h.shown), h.2]

theorem checkOperator_allowed {v : Value} {operator : Option Operator}
    (h : checkOperator v = .ok operator) : ∀ o ∈ operator, o ∈ Operator.comparisons := by
  intro o member
  cases v with
  | none =>
      cases h
      cases member
  | text s =>
      obtain ⟨o', read, h⟩ := ok_bind_iff.mp h
      cases h
      cases member
      simp only [Operator.check] at read
      split at read
      · next found =>
          cases read
          exact List.mem_of_find?_eq_some found
      · cases read
  | _ => cases h

theorem checkSide_again {side : String} (h : Identifier.Accepted side) (role : String) :
    checkSide role (.text side) = .ok (some side) :=
  ok_bind_iff.mpr ⟨side, h role, rfl⟩

/-- What the checks leave of the way in which rows are matched. -/
inductive Held : JoinCondition → Prop
  | columns {left right : String} {operator : Operator} (hleft : Identifier.Accepted left)
      (allowed : operator ∈ Operator.comparisons) (hright : Identifier.Accepted right) :
      Held (.columns left operator right)
  | text {condition : String} (trimmed : Text.IsTrimmed condition) : Held (.text condition)

theorem Held.canonical {condition : JoinCondition} (h : Held condition) : condition.Canonical := by
  cases h with
  | columns _ allowed => exact .columns allowed (Operator.isNormal _)
  | text trimmed => exact .text trimmed

theorem Parts.held {kind : JoinKind} {table : String} {text left right : Option String}
    {operator : Option Operator} (parts : Parts data kind table text left operator right)
    (formed : ofParts kind table text left operator right = .ok j) : Held j.condition := by
  have trimmed : ∀ condition ∈ text, Text.IsTrimmed condition := by
    refine checkField_holds (P := fun text => ∀ condition ∈ text, Text.IsTrimmed condition) ?_
      (fun v text read => ?_) parts.text
    · exact nofun
    · exact checkCondition_trimmed (Checked.ofExcept_ok.mp read)
  have allowed : ∀ o ∈ operator, o ∈ Operator.comparisons := by
    refine checkField_holds (P := fun operator => ∀ o ∈ operator, o ∈ Operator.comparisons) ?_
      (fun v operator read => ?_) parts.operator
    · exact nofun
    · exact checkOperator_allowed (Checked.ofExcept_ok.mp read)
  simp only [ofParts] at formed
  split at formed
  · next form =>
      cases formed
      simp only [condition?] at form
      split at form
      · cases form
        exact .text (trimmed _ rfl)
      · cases form
        exact .columns (side_of_field parts.left _ rfl) (allowed _ rfl)
          (side_of_field parts.right _ rfl)
      · cases form
  · cases formed

theorem retold_of_held (table : TableReference.check (.text j.table) = .ok j.table)
    (held : Held j.condition) : ofFields j.toFields = .ok j := by
  obtain ⟨kind, reference, condition⟩ := j
  have kinds : checkKind (.text kind.text) = .ok kind := by cases kind <;> rfl
  have tables := Checked.ofExcept_ok.mpr table
  rw [ofFields_ok]
  cases held with
  | @columns left right operator hleft allowed hright =>
      refine ⟨kind, reference, none, some left, some operator, some right, ?_, rfl⟩
      have operators : checkOperator (.text operator.text) = .ok (some operator) :=
        ok_bind_iff.mpr ⟨operator, Operator.check_comparison allowed, rfl⟩
      exact {
        kind := checkField_given rfl kinds
        table := checkField_given rfl tables
        text := checkField_given rfl rfl
        left := checkField_given rfl (Checked.ofExcept_ok.mpr (checkSide_again hleft _))
        operator := checkField_given rfl (Checked.ofExcept_ok.mpr operators)
        right := checkField_given rfl (Checked.ofExcept_ok.mpr (checkSide_again hright _)) }
  | @text text trimmed =>
      refine ⟨kind, reference, some text, none, none, none, ?_, rfl⟩
      exact {
        kind := checkField_given rfl kinds
        table := checkField_given rfl tables
        text := checkField_given rfl (Checked.ofExcept_ok.mpr (checkCondition_again trimmed))
        left := checkField_given rfl rfl
        operator := checkField_given rfl rfl
        right := checkField_given rfl rfl }

theorem retold : IsRetold ofFields toFields fun j => j.condition.Canonical := by
  intro data j h
  obtain ⟨kind, table, text, left, operator, right, parts, formed⟩ := ofFields_ok.mp h
  have held := parts.held formed
  obtain ⟨v, -, reference⟩ := ofFields_table h
  exact ⟨retold_of_held (TableReference.check_again reference) held, held.canonical⟩

theorem check_again {v : Value} (h : check v = .ok j) :
    check (Fields.toValue j.toFields) = .ok j ∧ j.condition.Canonical := by
  refine retold.of_map (fun _ => rfl) ?_ h
  cases v <;> first | exact ⟨_, rfl⟩ | cases h

end Join

def Entry.toFields (e : Entry) : List (String × Value) :=
  (match e.source with
    | .column name => [("column", .text name), ("raw", .none)]
    | .raw sql => [("column", .none), ("raw", .text sql)]) ++
  [("params", FragmentParams.optionToValue e.params)]

def OrderEntry.toFields (e : OrderEntry) : List (String × Value) :=
  e.toEntry.toFields ++ [("direction", .text e.direction.text)]

structure Entry.Canonical (e : Entry) : Prop where
  trimmed : ∀ sql, e.source = .raw sql → Text.IsTrimmed sql
  container : (FragmentParams.optionToValue e.params).IsParams

namespace Entry

variable {data : List (String × Value)} {clause : String} {column raw : Option String}
  {params : Option FragmentParams} {e : Entry}

theorem checkRaw_trimmed {v : Value} (h : checkRaw clause v = .ok raw) :
    ∀ sql ∈ raw, Text.IsTrimmed sql := by
  intro sql member
  cases v with
  | none =>
      cases h
      cases member
  | text s =>
      rw [checkRaw] at h
      obtain ⟨trimmed, rfl⟩ := Text.isTrimmed_of_read h
      cases member
      exact trimmed
  | _ => cases h

theorem checkRaw_again {sql : String} (h : Text.IsTrimmed sql) (clause : String) :
    checkRaw clause (.text sql) = .ok (some sql) := by
  rw [checkRaw, if_neg (Bool.eq_false_iff.mp h.shown), h.2]

/-- What the checks leave of an entry. -/
inductive Held : Entry → Prop
  | column {name : String} {params : Option FragmentParams} (named : Identifier.Accepted name)
      (bare : ¬ hasParams params = true) (kept : FragmentParams.IsKept params) :
      Held ⟨.column name, params⟩
  | raw {sql : String} {params : Option FragmentParams} (trimmed : Text.IsTrimmed sql)
      (kept : FragmentParams.IsKept params) : Held ⟨.raw sql, params⟩

theorem Held.canonical (h : Held e) : e.Canonical := by
  cases h with
  | column => exact ⟨nofun, FragmentParams.isParams _⟩
  | raw trimmed =>
      refine ⟨fun sql same => ?_, FragmentParams.isParams _⟩
      cases same
      exact trimmed

theorem Parts.held {entry : String} (parts : Parts clause data column raw params)
    (formed : ofParts entry column raw params = .ok e) : Held e := by
  have trimmed : ∀ sql ∈ raw, Text.IsTrimmed sql := by
    refine checkField_holds (P := fun raw => ∀ sql ∈ raw, Text.IsTrimmed sql) ?_
      (fun v raw read => ?_) parts.raw
    · exact nofun
    · exact checkRaw_trimmed (Checked.ofExcept_ok.mp read)
  have kept : FragmentParams.IsKept params := by
    have absent : FragmentParams.IsKept none := trivial
    exact checkField_holds (P := FragmentParams.IsKept) absent (fun _ _ => Node.checkParams_kept)
      parts.params
  simp only [ofParts] at formed
  split at formed
  · split at formed
    · cases formed
    · next bare =>
        cases formed
        exact .column (parts.named _ rfl) bare kept
  · cases formed
    exact .raw (trimmed _ rfl) kept
  · cases formed

/-- An entry is made of its own fields again, with any others beside them. -/
theorem Held.again (h : Held e) (clause entry : String) (more : List (String × Value)) :
    ∃ column raw params, Parts clause (e.toFields ++ more) column raw params ∧
      ofParts entry column raw params = .ok e := by
  cases h with
  | @column name params named bare kept =>
      have columns : checkColumn (.text name) = .ok (some name) :=
        ok_bind_iff.mpr ⟨name, named _, rfl⟩
      refine ⟨some name, none, params, ?_, if_neg bare⟩
      exact {
        column := checkField_given rfl (Checked.ofExcept_ok.mpr columns)
        raw := checkField_given rfl rfl
        params := checkField_given rfl (Node.checkParams_again kept) }
  | @raw sql params trimmed kept =>
      refine ⟨none, some sql, params, ?_, rfl⟩
      exact {
        column := checkField_given rfl rfl
        raw := checkField_given rfl (Checked.ofExcept_ok.mpr (checkRaw_again trimmed clause))
        params := checkField_given rfl (Node.checkParams_again kept) }

end Entry

theorem GroupEntry.retold : IsRetold ofFields Entry.toFields Entry.Canonical := by
  intro data e h
  obtain ⟨column, raw, params, parts, formed⟩ := ofFields_ok.mp h
  have held := parts.held formed
  obtain ⟨column', raw', params', parts', formed'⟩ := held.again clause entryName []
  rw [List.append_nil] at parts'
  exact ⟨ofFields_ok.mpr ⟨column', raw', params', parts', formed'⟩, held.canonical⟩

theorem GroupEntry.check_again {v : Value} {e : Entry} (h : check v = .ok e) :
    check (Fields.toValue e.toFields) = .ok e ∧ e.Canonical := by
  refine retold.of_map (fun _ => rfl) ?_ h
  cases v <;> first | exact ⟨_, rfl⟩ | cases h

namespace OrderEntry

variable {data : List (String × Value)} {e : OrderEntry}

theorem retold : IsRetold ofFields toFields fun e => e.toEntry.Canonical := by
  intro data e h
  obtain ⟨column, raw, params, parts, -, formed⟩ := ofFields_ok.mp h
  have held := parts.held formed
  obtain ⟨⟨source, params⟩, direction⟩ := e
  obtain ⟨column', raw', params', parts', formed'⟩ :=
    held.again clause entryName [("direction", .text direction.text)]
  have directions : checkDirection (.text direction.text) = .ok direction := by
    cases direction <;> rfl
  have directed : Fields.get? "direction" (toFields ⟨⟨source, params⟩, direction⟩) =
      some (.text direction.text) := by
    cases source <;> rfl
  refine ⟨ofFields_ok.mpr ⟨column', raw', params', parts', ?_, formed'⟩, held.canonical⟩
  exact checkField_given directed (Checked.ofExcept_ok.mpr directions)

theorem check_again {v : Value} (h : check v = .ok e) :
    check (Fields.toValue e.toFields) = .ok e ∧ e.toEntry.Canonical := by
  refine retold.of_map (fun _ => rfl) ?_ h
  cases v <;> first | exact ⟨_, rfl⟩ | cases h

end OrderEntry

end FluentSql
