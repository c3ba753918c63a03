import FluentSql.Proofs.TidyPieces
import FluentSql.Proofs.Writing

/-!
Positional parameters. The collector of a positional style only grows at its end, by the values of
the part that is written, so the parameters are the values of the layout read from left to right:
those of the assignments first, then those of the clauses in the order in which they are written.
-/

namespace FluentSql

/-- A text that shows a mark in every place of its layout, and parameters that are the values of the
layout in the order of the text. -/
structure Compiled.LinesUp (k : Compiler) (parts : List Part) (c : Compiled) : Prop where
  sql : c.sql = String.join
    (parts.map fun part => part.text k (part.places.map fun _ => k.style.placeholder ""))
  parameters : c.parameters = .list (parts.flatMap Part.values)

namespace Collector

variable {style : Style} (positional : style.isNamed = false) {reserved : List String}
include positional

theorem bind_positional (c : Collector) (v : Value) :
    c.bind style reserved v =
      (style.placeholder "", { c with positional := c.positional ++ [v] }) := by
  cases style with
  | qmark | format => rfl
  | named | pyformat => cases positional

theorem bindAll_positional (c : Collector) (vs : List Value) :
    c.bindAll style reserved vs =
      (vs.map fun _ => style.placeholder "", { c with positional := c.positional ++ vs }) := by
  induction vs generalizing c with
  | nil => simp only [bindAll, List.map_nil, List.append_nil]
  | cons v vs ih =>
      simp only [bindAll, bind_positional positional, ih, List.map_cons, List.append_assoc,
        List.singleton_append]

theorem extend_positional {clause : FragmentClause} {c c' : Collector}
    {params : Option FragmentParams} (h : c.extend style clause params = .ok c') :
    c' = { c with positional := c.positional ++ FragmentParams.items params } := by
  cases params with
  | none => cases h; simp [FragmentParams.items]
  | some params =>
      simp only [extend, positional] at h
      split at h
      · next absent =>
          cases h
          cases params with
          | list items => simp [FragmentParams.items, List.isEmpty_iff.mp absent]
          | map entries => simp [FragmentParams.items]
      · cases params with
        | list items => cases h; rfl
        | map entries => cases h

theorem collect_positional {c c' : Collector} {part : Part} {marks : List String}
    (h : c.collect style reserved part = .ok (marks, c')) :
    marks = (part.places.map fun _ => style.placeholder "") ∧
      c' = { c with positional := c.positional ++ part.values } := by
  cases part with
  | fragment clause sql params =>
      obtain ⟨c₁, hextend, h⟩ := ok_bind_iff.mp h
      cases h
      exact ⟨rfl, extend_positional positional hextend⟩
  | plain | leaf | assignment | inserted =>
      simp only [collect, bindAll_positional positional] at h
      cases h
      exact ⟨rfl, rfl⟩

/-- A run adds the values of its parts, one part after the other. -/
theorem run_positional {c c' : Collector} {parts : List Part} {marks : List (List String)}
    (run : Run style reserved c parts marks c') :
    marks = (parts.map fun part => part.places.map fun _ => style.placeholder "") ∧
      c'.positional = c.positional ++ parts.flatMap Part.values := by
  induction run with
  | nil c => simp
  | cons step run ih =>
      obtain ⟨rfl, rfl⟩ := collect_positional positional step
      obtain ⟨rfl, ih⟩ := ih
      exact ⟨rfl, by rw [ih, List.flatMap_cons, List.append_assoc]⟩

end Collector

namespace Node

mutual

/-- The values of a condition, in the order of its leaves and fragments. -/
def values : Node → List Value
  | .leaf _ operator operand _ => operand.boundValues operator
  | .raw _ params _ => FragmentParams.items params
  | .group items _ => valuesOf items
  | .stray _ => []

def valuesOf : List Node → List Value
  | [] => []
  | node :: rest => values node ++ valuesOf rest

end

mutual

theorem values_tokens (isolated : Bool) : ∀ node : Node,
    (node.tokens isolated).flatMap (fun t => t.part.values) = node.values
  | .leaf .. => by simp only [tokens, List.flatMap_singleton]; rfl
  | .raw .. => by simp only [tokens, List.flatMap_singleton]; rfl
  | .stray _ => by simp only [tokens, List.flatMap_singleton]; rfl
  | .group [] _ => by cases isolated <;> rfl
  | .group [item] _ => by
      rw [tokens, values_tokens isolated item, values, valuesOf, valuesOf, List.append_nil]
  | .group (first :: second :: rest) _ => by
      have inner : (sequence true (first :: second :: rest)).flatMap (fun t => t.part.values) =
          valuesOf (first :: second :: rest) := by
        rw [sequence, List.flatMap_append, values_tokens true first,
          values_continued true (second :: rest)]
        rfl
      rw [values, ← inner]
      cases isolated with
      | false => rfl
      | true =>
          simp only [tokens, if_true, List.flatMap_append, List.flatMap_cons, List.flatMap_nil,
            List.append_nil]
          exact List.append_nil _

theorem values_continued (isolated : Bool) : ∀ nodes : List Node,
    (continued isolated nodes).flatMap (fun t => t.part.values) = valuesOf nodes
  | [] => rfl
  | node :: rest => by
      rw [continued, List.flatMap_append, List.flatMap_cons, values_tokens isolated node,
        values_continued isolated rest, valuesOf]
      rfl

end

end Node

def Entry.values (e : Entry) : List Value :=
  match e.source with
  | .raw _ => FragmentParams.items e.params
  | .column _ => []

namespace Statement

/-- The values of a statement, clause by clause. -/
def boundValues (s : Statement) : Operation → List Value
  | .select => Node.valuesOf s.predicates ++ s.grouping.flatMap Entry.values ++
      Node.valuesOf s.having ++ s.ordering.flatMap fun e => Entry.values e.toEntry
  | .insert => s.values.map (·.2)
  | .update => s.values.map (·.2) ++ Node.valuesOf s.predicates
  | .delete => Node.valuesOf s.predicates
  | .raw => []

theorem values_plain (ps : List Piece) : (Part.plain ps).values = [] := rfl

theorem values_conditionParts (keyword : String) (nodes : List Node) :
    (conditionParts keyword nodes).flatMap Part.values = Node.valuesOf nodes := by
  cases nodes with
  | nil => rfl
  | cons node rest =>
      simp only [conditionParts, List.isEmpty_cons, Bool.false_eq_true, if_false,
        List.flatMap_cons, List.flatMap_map, Node.clauseTokens, Node.sequence,
        List.flatMap_append, Node.values_tokens, Node.values_continued, Node.valuesOf]
      rfl

theorem values_intersperse (parts : List Part) :
    (parts.intersperse comma).flatMap Part.values = parts.flatMap Part.values := by
  induction parts with
  | nil => rfl
  | cons part parts ih =>
      cases parts with
      | nil => rfl
      | cons part' parts =>
          rw [List.intersperse_cons_cons, List.flatMap_cons, List.flatMap_cons, ih]
          rfl

theorem values_groupingParts (grouping : List Entry) :
    (groupingParts grouping).flatMap Part.values = grouping.flatMap Entry.values := by
  have entry (e : Entry) : (groupEntryPart e).values = Entry.values e := by
    rcases e with ⟨_ | _, params⟩ <;> rfl
  simp only [groupingParts]
  split
  · next absent => rw [List.isEmpty_iff.mp absent]; rfl
  · rw [List.flatMap_cons, values_intersperse, List.flatMap_map]
    simp only [entry]
    rfl

theorem values_orderingParts (ordering : List OrderEntry) :
    (orderingParts ordering).flatMap Part.values =
      ordering.flatMap fun e => Entry.values e.toEntry := by
  have entry (e : OrderEntry) : (orderEntryPart e).values = Entry.values e.toEntry := by
    rcases e with ⟨⟨_ | _, params⟩, direction⟩ <;> rfl
  simp only [orderingParts]
  split
  · next absent => rw [List.isEmpty_iff.mp absent]; rfl
  · rw [List.flatMap_cons, values_intersperse, List.flatMap_map]
    simp only [entry]
    rfl

theorem values_selectParts (dialect : String) (s : Statement) :
    (s.selectParts dialect).flatMap Part.values = s.boundValues .select := by
  simp only [selectParts, List.flatMap_append, List.flatMap_cons, List.flatMap_nil,
    values_conditionParts, values_groupingParts, values_orderingParts, values_plain,
    List.append_nil, List.nil_append]
  rfl

/-- The values of a layout are those of the statement. -/
theorem values_parts (k : Compiler) (s : Statement) (operation : Operation) :
    (s.parts k operation).flatMap Part.values = s.boundValues operation := by
  cases operation with
  | select => exact values_selectParts k.dialect s
  | insert =>
      have inserted : s.values.flatMap (fun entry => (Part.inserted entry.2).values) =
          s.values.map (·.2) := List.map_eq_flatMap.symm
      simp only [parts, insertParts, List.flatMap_append, List.flatMap_cons, List.flatMap_nil,
        values_intersperse, List.flatMap_map, values_plain, inserted, List.append_nil,
        List.nil_append]
      rfl
  | update =>
      have assigned : s.values.flatMap (fun entry => (Part.assignment entry.1 entry.2).values) =
          s.values.map (·.2) := List.map_eq_flatMap.symm
      simp only [parts, updateParts, List.flatMap_append, List.flatMap_cons, values_intersperse,
        List.flatMap_map, values_conditionParts, values_plain, assigned, List.nil_append]
      rfl
  | delete =>
      rw [parts, deleteParts, List.flatMap_cons, values_conditionParts]
      rfl
  | raw => rfl

theorem values_countParts (k : Compiler) (s : Statement) :
    (s.countParts k).flatMap Part.values =
      (if s.isPaginated then s else { s with ordering := [] }).boundValues .select := by
  simp only [countParts]
  split
  · simp only [List.flatMap_append, List.flatMap_cons, List.flatMap_nil, values_plain,
      values_selectParts, List.append_nil, List.nil_append]
  · next simple =>
      have unpaged : s.isPaginated = false := by simp_all
      rw [values_selectParts, unpaged]
      rfl

end Statement

namespace Compiler

section

variable {k : Compiler} (positional : k.style.isNamed = false) {reserved : List String}
include positional

/-- What is written from a layout in a positional style lines up. -/
theorem linesUp_of_write {parts : List Part} (sound : ∀ part ∈ parts, part.IsSound)
    {compiled : Compiled}
    (h : k.write reserved (parts.flatMap Part.pieces) =
      .ok (compiled.sql, compiled.parameters)) : compiled.LinesUp k parts := by
  obtain ⟨last, hlast, hparameters⟩ := write_ok.mp h
  obtain ⟨marks, run, hsql⟩ := writeFrom_parts sound hlast
  obtain ⟨rfl, hpositional⟩ := Collector.run_positional positional run
  constructor
  · rw [hsql, List.zipWith_map_right, List.zipWith_self]
  · rw [hparameters, Collector.parameters, positional, hpositional]
    rfl

variable {c c' : Collector} {sql : String}

theorem writePiece_shown {p : Piece} (h : k.writePiece reserved c p = .ok (sql, c')) :
    sql = p.shown k ∧ c'.positional = c.positional ++ p.values := by
  cases p with
  | text s | name s =>
      cases h
      exact ⟨rfl, (List.append_nil _).symm⟩
  | bound v =>
      rw [writePiece_bound, Collector.bind_positional positional] at h
      cases h
      exact ⟨rfl, rfl⟩
  | fragment clause text params =>
      obtain ⟨c₁, hextend, h⟩ := ok_bind_iff.mp h
      cases h
      rw [Collector.extend_positional positional hextend]
      exact ⟨rfl, rfl⟩
  | halt e => cases h

theorem writeFrom_shown {ps : List Piece} (h : k.writeFrom reserved c ps = .ok (sql, c')) :
    sql = String.join (ps.map (Piece.shown k)) ∧
      c'.positional = c.positional ++ ps.flatMap Piece.values := by
  induction ps generalizing c sql with
  | nil =>
      obtain ⟨rfl, rfl⟩ := writeFrom_nil_ok.mp h
      exact ⟨rfl, (List.append_nil _).symm⟩
  | cons p ps ih =>
      obtain ⟨head, tail, c₁, hp, hps, rfl⟩ := writeFrom_cons_ok.mp h
      obtain ⟨rfl, hc₁⟩ := writePiece_shown positional hp
      obtain ⟨rfl, hc'⟩ := ih hps
      rw [List.map_cons, String.join_cons, hc', hc₁, List.flatMap_cons, List.append_assoc]
      exact ⟨rfl, rfl⟩

/-- Tidy pieces are written with one mark for each parameter. -/
theorem marks_of_write {ps : List Piece} (tidy : Piece.Tidy k ps) {parameters : Value}
    (h : k.write reserved ps = .ok (sql, parameters)) :
    ∃ values, parameters = .list values ∧ k.marks sql = values.length := by
  obtain ⟨last, hlast, rfl⟩ := write_ok.mp h
  obtain ⟨rfl, hvalues⟩ := writeFrom_shown positional hlast
  refine ⟨last.positional, by rw [Collector.parameters, positional]; rfl, ?_⟩
  rw [tidy.marks_join positional, hvalues]
  rfl

/-- In a positional style the parameters are the values of the layout in the order of the text, for
every operation and for the counting form. Where no other text has a mark, the text has as many
marks as there are parameters. -/
theorem positional_parameters_line_up (s : Statement) (given : s.isRaw = false) :
    (∀ c, k.compile s = .ok c → ∃ operation, s.operation = some operation ∧
        c.LinesUp k (s.parts k operation)) ∧
      (∀ c, k.compileCount s = .ok c → c.LinesUp k (s.countParts k)) ∧
      (s.MarksFit k → ∀ c, k.compile s = .ok c ∨ k.compileCount s = .ok c →
        ∃ values, c.parameters = .list values ∧ k.marks c.sql = values.length) := by
  refine ⟨fun c h => ?_, fun c h => ?_, fun fit c h => ?_⟩
  · obtain ⟨operation, hoperation, hwrite⟩ := compile_ok given h
    exact ⟨operation, hoperation,
      linesUp_of_write positional (Statement.parts_isSound k s operation) hwrite⟩
  · exact linesUp_of_write positional (Statement.countParts_isSound k s) (compileCount_ok h)
  · obtain h | h := h
    · obtain ⟨operation, -, hwrite⟩ := compile_ok given h
      exact marks_of_write positional (Statement.parts_tidy positional fit operation) hwrite
    · exact marks_of_write positional (Statement.countParts_tidy positional fit)
        (compileCount_ok h)

/-- The parameters clause by clause: assignments stand before conditions, conditions before raw
groupings, these before HAVING, and raw orderings last. A counted statement drops an ordering that
no limit needs. -/
theorem positional_parameters_eq {s : Statement} (given : s.isRaw = false) :
    (∀ c, k.compile s = .ok c → ∃ operation, s.operation = some operation ∧
        c.parameters = .list (s.boundValues operation)) ∧
      (∀ c, k.compileCount s = .ok c → c.parameters =
        .list ((if s.isPaginated then s else { s with ordering := [] }).boundValues .select)) := by
  constructor
  · intro c h
    obtain ⟨operation, hoperation, hwrite⟩ := compile_ok given h
    have lines := linesUp_of_write positional (Statement.parts_isSound k s operation) hwrite
    exact ⟨operation, hoperation, by rw [lines.parameters, Statement.values_parts]⟩
  · intro c h
    have lines :=
      linesUp_of_write positional (Statement.countParts_isSound k s) (compileCount_ok h)
    rw [lines.parameters, Statement.values_countParts]

end

/-- A grouped SELECT with values in four clauses, some of them in fragments. -/
def groupedSelect : Statement where
  operation := some .select
  table := some "orders o"
  columns := ["o.day", "COUNT(*) AS n"]
  predicates := [.leaf "o.total" .between (.range (.int 1) (.int 9)) .and,
    .group [.raw "note LIKE %s" (some (.list [.text "a%s"])) .and,
      .leaf "state" .among (.list [.text "new", .text "paid"]) .or] .or]
  grouping := [⟨.raw "date(%s, o.day)", some (.list [.text "utc"])⟩]
  having := [.leaf "n" .gt (.one (.int 2)) .and]
  ordering := [⟨⟨.column "n", none⟩, .descending⟩]

theorem positional_parameters_line_up_of_grouped :
    ∃ k : Compiler, k.style.isNamed = false ∧ groupedSelect.isRaw = false ∧
      groupedSelect.MarksFit k ∧ ∃ c, k.compile groupedSelect = .ok c ∧
        c.sql = "SELECT o.day, COUNT(*) AS n FROM orders AS o WHERE o.total BETWEEN %s AND %s " ++
          "OR (note LIKE %s OR state IN (%s, %s)) GROUP BY date(%s, o.day) HAVING n > %s " ++
          "ORDER BY n DESC" ∧
        c.parameters = .list [.int 1, .int 9, .text "a%s", .text "new", .text "paid",
          .text "utc", .int 2] ∧
        k.marks c.sql = 7 := by
  let k : Compiler := { style := .format }
  have positional : k.style.isNamed = false := rfl
  have fit : groupedSelect.MarksFit k := by
    constructor
    · decide +kernel
    · decide +kernel
    · nofun
    · simp only [groupedSelect, Node.MarksFitAll, Node.MarksFit]
      decide +kernel
    · simp only [groupedSelect, Node.MarksFitAll, Node.MarksFit]
      decide +kernel
    · simp only [groupedSelect, List.forall_mem_singleton, Entry.MarksFit]
      decide +kernel
    · simp only [groupedSelect, List.forall_mem_singleton, Entry.MarksFit]
      decide +kernel
  have text : (k.compile groupedSelect).toOption.map (·.sql) =
      some ("SELECT o.day, COUNT(*) AS n FROM orders AS o WHERE o.total BETWEEN %s AND %s " ++
        "OR (note LIKE %s OR state IN (%s, %s)) GROUP BY date(%s, o.day) HAVING n > %s " ++
        "ORDER BY n DESC") := by decide +kernel
  refine ⟨k, positional, rfl, fit, ?_⟩
  cases hc : k.compile groupedSelect with
  | error e => rw [hc] at text; cases text
  | ok c =>
      rw [hc] at text
      have lines := positional_parameters_line_up positional groupedSelect rfl
      obtain ⟨operation, hoperation, lined⟩ := lines.1 c hc
      cases hoperation
      obtain ⟨values, hvalues, count⟩ := lines.2.2 fit c (.inl hc)
      have parameters := lined.parameters
      refine ⟨c, rfl, Option.some.inj text, parameters, ?_⟩
      rw [parameters] at hvalues
      cases hvalues
      exact count

end Compiler
end FluentSql
