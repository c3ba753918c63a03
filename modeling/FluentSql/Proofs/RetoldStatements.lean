import FluentSql.Clause.Statement
import FluentSql.Proofs.BoundParameters
import FluentSql.Proofs.RetoldClauses

/-!
Statements told again. A statement has a field for each of its parts, absent ones included, and its
clauses are maps of theirs; checked again, each field gives back the part that it tells. With what
holds of the clauses, checking is idempotent for all of them.
-/

namespace FluentSql

namespace Statement

/-- The fields of a statement. A part that is absent has a field that holds nothing. -/
def toFields (s : Statement) : List (String × Value) :=
  [("operation", s.operation.elim .none (.text ∘ Operation.text)),
    ("table", s.table.elim .none .text),
    ("columns", .list (s.columns.map .text)),
    ("distinct", .bool s.distinct),
    ("values", Fields.toValue s.values),
    ("joins", .list (s.joins.map (Fields.toValue ∘ Join.toFields))),
    ("predicates", .list (Node.toMaps s.predicates)),
    ("having", .list (Node.toMaps s.having)),
    ("grouping", .list (s.grouping.map (Fields.toValue ∘ Entry.toFields))),
    ("ordering", .list (s.ordering.map (Fields.toValue ∘ OrderEntry.toFields))),
    ("limit", s.limit.elim .none fun n => .int n),
    ("offset", s.offset.elim .none fun n => .int n),
    ("raw_sql", s.rawSql.elim .none .text),
    ("raw_params", Params.optionToValue s.rawParams),
    ("unconditional", .bool s.unconditional)]

/-- Every clause is as the checks leave it. -/
structure Canonical (s : Statement) : Prop where
  joins : ∀ j ∈ s.joins, j.condition.Canonical
  predicates : ∀ node ∈ s.predicates, node.Canonical
  having : ∀ node ∈ s.having, node.Canonical
  grouping : ∀ e ∈ s.grouping, e.Canonical
  ordering : ∀ e ∈ s.ordering, e.toEntry.Canonical

variable {data : List (String × Value)} {s : Statement}

theorem optional_again {α : Type} {read : Value → Option α} {tell : α → Value}
    (given : ∀ a, tell a ≠ .none) (again : ∀ a, read (tell a) = some a) (part : Option α) :
    optional read (part.elim .none tell) = .ok part := by
  cases part with
  | none => rfl
  | some a =>
      have present := given a
      simp only [Option.elim, optional, again]
      rfl

theorem operation_again (operation : Option Operation) :
    optional (fun v => v.asText?.bind Operation.ofText?)
      (operation.elim .none (.text ∘ Operation.text)) = .ok operation := by
  refine optional_again (fun _ => ?_) (fun operation => ?_) operation
  · exact nofun
  · cases operation <;> rfl

theorem text_again (part : Option String) :
    optional Value.asText? (part.elim .none .text) = .ok part := by
  refine optional_again (fun _ => ?_) (fun _ => ?_) part
  · exact nofun
  · rfl

theorem number_again (part : Option Nat) :
    optional Value.asNat? (part.elim .none fun n => .int n) = .ok part := by
  refine optional_again (fun _ => ?_) (fun n => ?_) part
  · exact nofun
  · simp only [Value.asNat?, Value.asIntFrom?, Value.asInt?, Option.filter, Int.natCast_nonneg]
    rfl

theorem checkItems_again {α : Type} {check : Value → Checked α} {tell : α → Value} {as : List α}
    (each : ∀ a ∈ as, check (tell a) = .ok a) :
    checkItems check (.list (as.map tell)) = .ok as := by
  simp only [checkItems, Value.items?]
  induction as with
  | nil => rfl
  | cons a rest ih =>
      obtain ⟨first, others⟩ := List.forall_mem_cons.mp each
      rw [List.map_cons, Checked.all, first, ih others]
      rfl

theorem nodes_asked {name : String} {nodes : List Node}
    (h : checkField data name (.ok []) Node.checkList = .ok nodes) :
    ∀ node ∈ nodes, node.Asked True :=
  checkField_holds (P := fun nodes => ∀ node ∈ nodes, node.Asked True) (List.forall_mem_nil _)
    (fun v _ => Node.checkList_asked trivial v) h

theorem checkList_again {nodes : List Node} (asked : ∀ node ∈ nodes, node.Asked True) :
    Node.checkList (.list (Node.toMaps nodes)) = .ok nodes :=
  Node.checkAll_toMaps fun node member => (asked node member).again

theorem ReadFrom.canonical (h : ReadFrom data s) : s.Canonical where
  joins := items_hold (fun _ _ read => (Join.check_again read).2) h.joins
  predicates node member := (nodes_asked h.predicates node member).canonical
  having node member := (nodes_asked h.having node member).canonical
  grouping := items_hold (fun _ _ read => (GroupEntry.check_again read).2) h.grouping
  ordering := items_hold (fun _ _ read => (OrderEntry.check_again read).2) h.ordering

theorem ReadFrom.distinct_values (h : ReadFrom data s) : (Fields.keys s.values).Nodup := by
  refine checkField_holds (P := fun values => (Fields.keys values).Nodup) ?_
    (fun v values read => ?_) h.values
  · exact List.nodup_nil
  · exact Value.asFields_distinct (Checked.ofOption_ok.mp read)

theorem ReadFrom.again (h : ReadFrom data s) : ReadFrom s.toFields s where
  operation := checkField_given rfl (operation_again s.operation)
  table := checkField_given rfl (text_again s.table)
  columns := checkField_given rfl (checkItems_again fun _ _ => rfl)
  distinct := checkField_given rfl rfl
  values := checkField_given rfl
    (Checked.ofOption_ok.mpr (Value.asFields_toValue h.distinct_values))
  joins := checkField_given rfl
    (checkItems_again (items_hold (fun _ _ read => (Join.check_again read).1) h.joins))
  predicates := checkField_given rfl (checkList_again (nodes_asked h.predicates))
  having := checkField_given rfl (checkList_again (nodes_asked h.having))
  grouping := checkField_given rfl
    (checkItems_again (items_hold (fun _ _ read => (GroupEntry.check_again read).1) h.grouping))
  ordering := checkField_given rfl
    (checkItems_again (items_hold (fun _ _ read => (OrderEntry.check_again read).1) h.ordering))
  limit := checkField_given rfl (number_again s.limit)
  offset := checkField_given rfl (number_again s.offset)
  rawSql := checkField_given rfl (text_again s.rawSql)
  rawParams := checkField_given rfl
    (Checked.ofExcept_ok.mpr (Params.shown_optionToValue s.rawParams).1)
  unconditional := checkField_given rfl rfl

theorem retold : IsRetold ofFields toFields Canonical := by
  intro data s h
  have read := ofFields_ok.mp h
  exact ⟨ofFields_ok.mpr read.again, read.canonical⟩

end Statement

/-- Checking is idempotent. What any class of clauses makes of plain data it makes again of the
fields of the result, and the result is in the canonical form of its class, at any depth. -/
theorem checks_are_idempotent :
    IsRetold Node.leafOfFields Node.toFields Node.Canonical ∧
    IsRetold Node.rawOfFields Node.toFields Node.Canonical ∧
    IsRetold Node.groupOfData Node.toFields Node.Canonical ∧
    IsRetold Join.ofFields Join.toFields (fun j => j.condition.Canonical) ∧
    IsRetold OrderEntry.ofFields OrderEntry.toFields (fun e => e.toEntry.Canonical) ∧
    IsRetold GroupEntry.ofFields Entry.toFields Entry.Canonical ∧
    IsRetold Statement.ofFields Statement.toFields Statement.Canonical :=
  ⟨Node.leaf_retold, Node.raw_retold, Node.group_retold, Join.retold, OrderEntry.retold,
    GroupEntry.retold, Statement.retold⟩

/-- A group of a list that is read once and a fragment with blanks around it, among the conditions
of a statement. -/
theorem checks_are_idempotent_of_nested :
    let data : List (String × Value) :=
      [("operation", .text "SELECT"), ("table", .text "users"), ("limit", .text "10"),
        ("predicates", .list [.map [(.text "kind", .text "group"), (.text "items", .tuple
          [.map [(.text "kind", .text "predicate"), (.text "field", .text "age"),
            (.text "operator", .text "not  in"), (.text "value", .iterator [.int 1, .int 2])],
          .map [(.text "kind", .text "raw"), (.text "sql", .text " active = ? "),
            (.text "params", .tuple [.bool true])]])]]),
        ("ordering", .list
          [.map [(.text "column", .text "age"), (.text "direction", .text "desc")]])]
    let s : Statement := {
      operation := some .select, table := some "users", limit := some 10
      predicates := [.group [.leaf "age" .notAmong (.list [.int 1, .int 2]) .and,
        .raw "active = ?" (some (.list [.bool true])) .and] .and]
      ordering := [⟨⟨.column "age", none⟩, .descending⟩] }
    Statement.ofFields data = .ok s ∧ Statement.ofFields s.toFields = .ok s ∧ s.Canonical := by
  intro data s
  have made : Statement.ofFields data = .ok s := by rfl
  obtain ⟨-, -, -, -, -, -, statements⟩ := checks_are_idempotent
  exact ⟨made, statements data s made⟩

end FluentSql
