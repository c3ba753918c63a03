import FluentSql.Proofs.CheckedNames
import FluentSql.Proofs.PieceOrigins
import FluentSql.Proofs.Writing

/-!
The names that a statement is compiled with. The table, the sides of joins and the columns of
conditions, groupings and orderings are accepted names, whichever way the statement came about. The
columns of values are accepted names when a terminal call took them; plain data may name them as it
likes.
-/

namespace FluentSql

section

variable {raws : Prop}

/-- The column of a leaf is an accepted name, and fragments have to be admitted. -/
def Token.Vetted (raws : Prop) : Token → Prop
  | .atom (.leaf field _ _) => Identifier.Accepted field
  | .atom (.fragment _ _) => raws
  | .atom (.stray _) => False
  | .connector _ | .opening | .closing => True

namespace Node

theorem forall_continued {P : Token → Prop} (connector : ∀ c, P (.connector c)) {isolated : Bool}
    {nodes : List Node} (each : ∀ node ∈ nodes, ∀ t ∈ tokens isolated node, P t) :
    ∀ t ∈ continued isolated nodes, P t := by
  induction nodes with
  | nil => exact List.forall_mem_nil _
  | cons node rest ih =>
      obtain ⟨first, others⟩ := List.forall_mem_cons.mp each
      rw [continued]
      exact List.forall_mem_cons.mpr
        ⟨connector _, List.forall_mem_append.mpr ⟨first, ih others⟩⟩

theorem forall_sequence {P : Token → Prop} (connector : ∀ c, P (.connector c)) {isolated : Bool}
    {nodes : List Node} (each : ∀ node ∈ nodes, ∀ t ∈ tokens isolated node, P t) :
    ∀ t ∈ sequence isolated nodes, P t := by
  cases nodes with
  | nil => exact List.forall_mem_nil _
  | cons node rest =>
      obtain ⟨first, others⟩ := List.forall_mem_cons.mp each
      rw [sequence]
      exact List.forall_mem_append.mpr ⟨first, forall_continued connector others⟩

theorem Asked.tokens_vetted {node : Node} (asked : node.Asked raws) (isolated : Bool) :
    ∀ t ∈ tokens isolated node, t.Vetted raws := by
  induction asked generalizing isolated with
  | leaf named => exact List.forall_mem_singleton.mpr (Identifier.check_accepted named)
  | raw admitted => exact List.forall_mem_singleton.mpr admitted
  | @group items c given _ ih =>
      have inner (isolated : Bool) : ∀ t ∈ sequence isolated items, t.Vetted raws :=
        forall_sequence (fun _ => trivial) fun item hitem => ih item hitem isolated
      obtain ⟨first, rest, rfl⟩ := List.exists_cons_of_ne_nil given
      -- a group of one item is written as the item, and a group without siblings as its items
      cases rest with
      | nil =>
          rw [tokens]
          exact ih first (List.mem_cons_self ..) isolated
      | cons second rest =>
          cases isolated with
          | false => exact inner true
          | true =>
              have closing : ∀ t ∈ [Token.closing], t.Vetted raws :=
                List.forall_mem_singleton.mpr trivial
              exact List.forall_mem_append.mpr
                ⟨List.forall_mem_cons.mpr ⟨trivial, inner true⟩, closing⟩

theorem clauseTokens_vetted {nodes : List Node} (asked : ∀ node ∈ nodes, node.Asked raws) :
    ∀ t ∈ clauseTokens nodes, t.Vetted raws :=
  forall_sequence (fun _ => trivial) fun node hnode => (asked node hnode).tokens_vetted _

end Node

/-- The places whose names are checked, however the statement came about. -/
def Place.isChecked : Place → Bool
  | .table | .side | .field | .grouping | .ordering => true
  | .shortName | .expression | .value => false

namespace Statement

variable {s : Statement}

theorem Vetted.conditionTokens (h : s.Vetted raws) : ∀ t ∈ s.conditionTokens, t.Vetted raws :=
  List.forall_mem_append.mpr
    ⟨Node.clauseTokens_vetted h.predicates, Node.clauseTokens_vetted h.having⟩

theorem table_accepted (s : Statement) : ∀ name ∈ s.namesAt .table, Identifier.Accepted name := by
  intro name hname
  obtain ⟨reference, -, hname⟩ := List.mem_filterMap.mp hname
  obtain ⟨t, read, rfl⟩ := Option.map_eq_some_iff.mp hname
  cases hsplit : TableReference.split (.text reference) with
  | error e =>
      rw [hsplit] at read
      cases read
  | ok found =>
      rw [hsplit] at read
      cases read
      exact (TableReference.split_parts hsplit).1

theorem Vetted.names_accepted (h : s.Vetted raws) {place : Place}
    (checked : place.isChecked = true) : ∀ name ∈ s.namesAt place, Identifier.Accepted name := by
  have column {source : Source} (vetted : source.Vetted raws) {name : String}
      (hname : source.column? = some name) : Identifier.Accepted name := by
    cases source with
    | column column =>
        cases hname
        exact vetted
    | raw sql => cases hname
  cases place with
  | table => exact s.table_accepted
  | side =>
      intro name hname
      obtain ⟨j, hj, hname⟩ := List.mem_flatMap.mp hname
      have vetted := h.joins j hj
      cases hcondition : j.condition with
      | columns left operator right =>
          rw [hcondition] at vetted hname
          obtain ⟨left, right⟩ := vetted
          simp only [JoinCondition.sides, List.mem_cons, List.not_mem_nil, or_false] at hname
          obtain rfl | rfl := hname
          · exact left
          · exact right
      | text condition =>
          rw [hcondition] at hname
          cases hname
  | field =>
      intro name hname
      obtain ⟨t, ht, hname⟩ := List.mem_filterMap.mp hname
      have vetted := h.conditionTokens t ht
      simp only [Token.field?] at hname
      split at hname
      · cases hname
        exact vetted
      · cases hname
  | grouping =>
      intro name hname
      obtain ⟨e, he, hname⟩ := List.mem_filterMap.mp hname
      exact column (h.grouping e he) hname
  | ordering =>
      intro name hname
      obtain ⟨e, he, hname⟩ := List.mem_filterMap.mp hname
      exact column (h.ordering e he) hname
  | shortName | expression | value => cases checked

/-- There are raw texts only if they are admitted. -/
theorem Vetted.rawTexts_admitted (h : s.Vetted raws) : ∀ text ∈ s.rawTexts, raws := by
  have raw {source : Source} (vetted : source.Vetted raws) {text : String}
      (htext : source.raw? = some text) : raws := by
    cases source with
    | column column => cases htext
    | raw sql => exact vetted
  intro text htext
  simp only [rawTexts, List.mem_append, List.mem_filterMap] at htext
  obtain ((⟨j, hj, htext⟩ | ⟨t, ht, htext⟩) | ⟨e, he, htext⟩) | ⟨e, he, htext⟩ := htext
  · have vetted := h.joins j hj
    cases hcondition : j.condition with
    | columns left operator right =>
        rw [hcondition] at htext
        cases htext
    | text condition =>
        rw [hcondition] at vetted
        exact vetted
  · have vetted := h.conditionTokens t ht
    simp only [Token.raw?] at htext
    split at htext
    · exact vetted
    · cases htext
  · exact raw (h.grouping e he) htext
  · exact raw (h.ordering e he) htext

/-- A statement that was constructed or validated from plain data, or built by calls. -/
inductive Admitted : Statement → Prop
  | constructed {data : List (String × Value)} {s : Statement} (h : ofFields data = .ok s) :
      Admitted s
  | validated {v : Value} {s : Statement} (h : check v = .ok s) : Admitted s
  | built {s : Statement} (h : s.Built fun _ => True) : Admitted s

theorem Admitted.vetted (h : s.Admitted) : s.Vetted True := by
  cases h with
  | constructed h => exact vetted_of_fields trivial h
  | @validated v _ h =>
      cases v with
      | map entries => exact vetted_of_fields trivial h
      | _ => cases h
  | built h => exact h.vetted fun _ _ _ => trivial

end Statement

end

namespace Compiler

/-- The text of a statement is written from its pieces, each of which has an origin. Written
without quotes, a name from a checked place is accepted, and so is a column of values that was
taken by a call. -/
theorem compiled_names_are_accepted (k : Compiler) {s : Statement} {c : Compiled}
    (admitted : s.Admitted) (unquoted : k.quotes = false) (given : s.isRaw = false)
    (h : k.compile s = .ok c) :
    ∃ operation ps, s.operation = some operation ∧ s.piecesFor k operation = .ok ps ∧
      k.write s.reservedNames ps = .ok (c.sql, c.parameters) ∧
      (∀ p ∈ ps, s.Origin p) ∧
      (∀ place : Place, place.isChecked = true → ∀ name ∈ s.namesAt place,
        Identifier.Accepted (k.writeName name)) ∧
      (s.Built (fun _ => True) → ∀ name ∈ s.namesAt .value,
        Identifier.Accepted (k.writeName name)) := by
  obtain ⟨operation, ps, held, pieces, written⟩ := compile_pieces_ok given h
  have plain (name : String) : k.writeName name = name := by
    rw [writeName, unquoted]
    rfl
  refine ⟨operation, ps, held, pieces, written, Statement.origins_piecesFor pieces, ?_, ?_⟩
  · intro place checked name hname
    rw [plain]
    exact admitted.vetted.names_accepted checked name hname
  · intro built name hname
    rw [plain]
    exact built.values name hname

/-- What a table and two values for an INSERT come to. -/
def insertingStatement : Statement :=
  (Terminal.finish {} (Call.apply {} (.table (.text "t"))).1
    (.insert (.map [(.text " a ", .int 1), (.text "b.c", .none)]))).1

theorem compiled_names_are_accepted_of_insert :
    ∃ c, compile {} insertingStatement = .ok c ∧
      c.sql = "INSERT INTO t (a, b.c) VALUES (?, ?)" ∧
      insertingStatement.namesAt .value = ["a", "b.c"] ∧
      Identifier.Accepted (writeName {} "a") ∧ Identifier.Accepted (writeName {} "b.c") := by
  have built : insertingStatement.Built fun _ => True := .finish (.call .new trivial) _ _
  have names : insertingStatement.namesAt .value = ["a", "b.c"] := by decide +kernel
  have text : (compile {} insertingStatement).toOption.map (·.sql) =
      some "INSERT INTO t (a, b.c) VALUES (?, ?)" := by decide +kernel
  obtain ⟨c, hc, sql⟩ := Option.map_eq_some_iff.mp text
  have compiled : compile {} insertingStatement = .ok c := toOption_some.mp hc
  obtain ⟨operation, ps, -, -, -, -, -, values⟩ :=
    compiled_names_are_accepted {} (.built built) rfl rfl compiled
  have accepted := values built
  rw [names] at accepted
  exact ⟨c, compiled, sql, names, accepted "a" (by decide), accepted "b.c" (by decide)⟩

/-- A column that ends the list of columns and the statement. -/
def hostileColumn : String := "a) VALUES (1); DROP TABLE t --"

/-- Plain data name a column that the check refuses, and it is written as it is. -/
theorem unchecked_column_is_written :
    let data := [("operation", .text "INSERT"), ("table", .text "t"),
      ("values", .map [(.text hostileColumn, .int 1)])]
    ∃ s c, Statement.ofFields data = .ok s ∧ s.isRaw = false ∧ compile {} s = .ok c ∧
      c.sql = "INSERT INTO t (a) VALUES (1); DROP TABLE t --) VALUES (?)" ∧
      hostileColumn ∈ s.namesAt .value ∧ ¬ Identifier.Accepted hostileColumn := by
  intro data
  have computed : (Statement.ofFields data).toExcept.toOption.map (fun s =>
      (s.isRaw, s.namesAt .value, (compile {} s).toOption.map (·.sql))) =
        some (false, [hostileColumn],
          some "INSERT INTO t (a) VALUES (1); DROP TABLE t --) VALUES (?)") := by
    decide +kernel
  obtain ⟨s, hs, held⟩ := Option.map_eq_some_iff.mp computed
  obtain ⟨raw, written⟩ := Prod.mk.inj held
  obtain ⟨names, text⟩ := Prod.mk.inj written
  obtain ⟨c, hc, sql⟩ := Option.map_eq_some_iff.mp text
  have constructed : Statement.ofFields data = .ok s := Checked.toExcept_ok.mp (toOption_some.mp hs)
  refine ⟨s, c, constructed, raw, toOption_some.mp hc, sql, ?_, fun accepted => ?_⟩
  · rw [names]
    exact List.mem_singleton_self _
  · have separator : Identifier.isNameChar ';' = true :=
      accepted.chars ';' (by decide +kernel)
    cases separator

end Compiler
end FluentSql
