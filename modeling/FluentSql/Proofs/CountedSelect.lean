import FluentSql.Proofs.Named
import FluentSql.Proofs.Positional

/-!
The counting form of a SELECT beside the SELECT itself. Both write one body, from the table to
HAVING, from an empty collector and with the same names reserved, so the body has the same
placeholders for the same values in both. A dropped ordering stands after the body: what it would
bind comes last, but the names that it claims stay reserved.
-/

namespace FluentSql

/-- An entry of ORDER BY as it is written; what a raw one binds is not seen in the text. -/
def OrderEntry.text (k : Compiler) (e : OrderEntry) : String :=
  match e.source with
  | .raw sql => sql
  | .column name => k.writeName name ++ " " ++ e.direction.text

namespace Statement

def selectWord (s : Statement) : String := if s.distinct then "SELECT DISTINCT " else "SELECT "

/-- What a SELECT has before its table. -/
def headText (k : Compiler) (s : Statement) : String :=
  s.selectWord ++ String.join ((projectionPieces s.columns).map (Piece.plainText k))

/-- What a SELECT and its counting form share: the table, the joins, WHERE, GROUP BY and HAVING. -/
def bodyParts (s : Statement) : List Part :=
  .plain (.text " FROM " :: tablePieces (s.table.getD "") ++ s.joins.flatMap joinPieces) ::
    conditionParts "WHERE" s.predicates ++ groupingParts s.grouping ++
    conditionParts "HAVING" s.having

def orderingText (k : Compiler) (s : Statement) : String :=
  if s.ordering.isEmpty then ""
  else " ORDER BY " ++ ", ".intercalate (s.ordering.map (OrderEntry.text k))

/-- Whether the rows of a statement without limits are counted through the statement itself. -/
def isNested (s : Statement) : Bool := !s.grouping.isEmpty || !s.having.isEmpty || s.distinct

end Statement

def countHead : String := "SELECT COUNT(*) AS aggregate"

/-- A text whose rows are counted. -/
def countingText (inner : String) : String :=
  countHead ++ " FROM (" ++ inner ++ ") AS aggregate_table"

/-- A SELECT without limits and its counting form. The body is written with the same names in both,
and the parameters of the SELECT are those of the counting form followed by those of its ordering;
in a named style no name has two values. -/
structure Compiled.CountedBy (k : Compiler) (s : Statement) (body : List NamedPart)
    (c counted : Compiled) : Prop where
  parts : body.map (·.part) = s.bodyParts
  places : ∀ w ∈ body, w.names.length = w.part.places.length
  sql : c.sql = s.headText k ++ String.join (body.map (NamedPart.text k)) ++ s.orderingText k
  countedSql : counted.sql =
    if s.isNested then countingText (s.headText k ++ String.join (body.map (NamedPart.text k)))
    else countHead ++ String.join (body.map (NamedPart.text k))
  positional : k.style.isNamed = false →
    counted.parameters = .list (s.bodyParts.flatMap Part.values) ∧
      c.parameters = .list (s.bodyParts.flatMap Part.values ++
        (Statement.orderingParts s.ordering).flatMap Part.values)
  named : k.style.isNamed = true →
    counted.parameters = Fields.toValue (body.flatMap NamedPart.entries) ∧
      c.parameters = Fields.toValue (body.flatMap NamedPart.entries ++
        (Statement.orderingParts s.ordering).flatMap Part.supplied) ∧
      (Fields.keys (body.flatMap NamedPart.entries ++
        (Statement.orderingParts s.ordering).flatMap Part.supplied)).Nodup

namespace Statement

theorem selectPieces_body (dialect : String) (s : Statement) :
    s.selectPieces dialect =
      (.text s.selectWord :: projectionPieces s.columns) ++ s.bodyParts.flatMap Part.pieces ++
        orderingPieces s.ordering ++
        pagingPieces (Dialect.paging dialect) (!s.ordering.isEmpty) s.limit s.offset := by
  simp only [selectPieces, coreSelectPieces, bodyParts, selectWord, List.flatMap_append,
    List.flatMap_cons, pieces_conditionParts, pieces_groupingParts, Part.pieces, List.append_assoc,
    List.cons_append]

theorem pagingPieces_unpaged {s : Statement} (unpaged : s.isPaginated = false)
    (paging : Dialect.Paging) (ordered : Bool) :
    pagingPieces paging ordered s.limit s.offset = [] := by
  obtain ⟨limit, offset⟩ := Bool.or_eq_false_iff.mp unpaged
  rw [Option.isSome_eq_false_iff, Option.isNone_iff_eq_none] at limit offset
  rw [limit, offset]
  cases paging <;> rfl

theorem selectPieces_unordered {s : Statement} (unpaged : s.isPaginated = false)
    (columns : List String) (dialect : String) :
    ({ s with columns := columns, ordering := [] } : Statement).selectPieces dialect =
      (.text s.selectWord :: projectionPieces columns) ++ s.bodyParts.flatMap Part.pieces := by
  rw [selectPieces_body, pagingPieces_unpaged unpaged, List.append_nil]
  exact List.append_nil _

theorem bodyParts_isSound (s : Statement) : ∀ part ∈ s.bodyParts, part.IsSound := by
  have head : (Part.plain (.text " FROM " :: tablePieces (s.table.getD "") ++
      s.joins.flatMap joinPieces)).IsSound := by
    have joins : (s.joins.flatMap joinPieces).all Piece.isPlain = true := by
      simp only [List.all_flatMap, joinPieces_isPlain, List.all_eq_true, implies_true]
    simp only [Part.IsSound, List.all_append, List.all_cons, tablePieces_isPlain, joins]
    rfl
  intro part hpart
  simp only [bodyParts, List.mem_append, List.mem_cons] at hpart
  obtain ((rfl | h) | h) | h := hpart
  · exact head
  · exact conditionParts_isSound _ _ part h
  · exact groupingParts_isSound _ part h
  · exact conditionParts_isSound _ _ part h

/-- No placeholder is generated in an ordering. -/
theorem orderingParts_places (ordering : List OrderEntry) :
    ∀ part ∈ orderingParts ordering, part.places = [] := by
  intro part hpart
  simp only [orderingParts] at hpart
  split at hpart
  · cases hpart
  · obtain rfl | hpart := List.mem_cons.mp hpart
    · rfl
    · refine forall_intersperse (P := fun part => part.places = []) rfl (fun p hp => ?_) part hpart
      obtain ⟨⟨⟨_ | _, params⟩, direction⟩, -, rfl⟩ := List.mem_map.mp hp
      · rfl
      · rfl

theorem text_intersperse (k : Compiler) (parts : List Part) :
    String.join ((parts.intersperse comma).map (Part.text k [])) =
      ", ".intercalate (parts.map (Part.text k [])) := by
  have between : comma.text k [] = ", " := by
    simp only [comma, Part.text, List.map_cons, List.map_nil, Piece.plainText, String.join_cons,
      String.join_nil, String.append_empty]
  induction parts with
  | nil => rfl
  | cons part parts ih =>
      cases parts with
      | nil => simp only [List.intersperse_singleton, List.map_cons, List.map_nil,
          String.join_cons, String.join_nil, String.append_empty, String.intercalate_singleton]
      | cons part' parts =>
          simp only [List.map_cons] at ih ⊢
          rw [List.intersperse_cons_cons, List.map_cons, List.map_cons, String.join_cons,
            String.join_cons, ih, between, String.intercalate_cons_cons, String.append_assoc]

theorem text_orderingParts (k : Compiler) (s : Statement) :
    String.join ((orderingParts s.ordering).map (Part.text k [])) = s.orderingText k := by
  have entry (e : OrderEntry) : (orderEntryPart e).text k [] = e.text k := by
    rcases e with ⟨⟨_ | _, params⟩, direction⟩
    · simp [orderEntryPart, orderEntryPieces, Part.text, Piece.plainText, OrderEntry.text,
        String.append_assoc]
    · rfl
  simp only [orderingParts, orderingText]
  split
  · rfl
  · rw [List.map_cons, String.join_cons, text_intersperse, List.map_map]
    simp only [Function.comp_def, entry]
    congr 1

end Statement

namespace NamedPart

/-- Parts without places are written without names. -/
theorem eq_of_placeless {written : List NamedPart} {parts : List Part}
    (hparts : written.map (·.part) = parts)
    (names : ∀ w ∈ written, w.names.length = w.part.places.length)
    (placeless : ∀ part ∈ parts, part.places = []) :
    written = parts.map fun part => ⟨part, []⟩ := by
  subst hparts
  rw [List.map_map]
  refine (List.map_congr_left fun w hw => ?_).trans (List.map_id written) |>.symm
  have none := names w hw
  rw [placeless w.part (List.mem_map_of_mem hw), List.length_nil, List.length_eq_zero_iff] at none
  rw [Function.comp_apply, ← none, id]

end NamedPart

namespace Collector

/-- A run in any style writes its parts with names, and adds what they bring. -/
theorem run_written {style : Style} {reserved : List String} {c c' : Collector} {parts : List Part}
    {marks : List (List String)} (run : Run style reserved c parts marks c') :
    ∃ written : List NamedPart, written.map (·.part) = parts ∧
      (∀ w ∈ written, w.names.length = w.part.places.length) ∧
      marks = written.map (fun w => w.names.map style.placeholder) ∧
      (style.isNamed = false → c'.positional = c.positional ++ parts.flatMap Part.values) ∧
      (style.isNamed = true → Adds reserved c (written.flatMap (·.names))
        (written.flatMap NamedPart.entries) c') := by
  cases named : style.isNamed with
  | true =>
      obtain ⟨written, hparts, names, hmarks, adds⟩ := run_adds named run
      exact ⟨written, hparts, names, hmarks, nofun, fun _ => adds⟩
  | false =>
      obtain ⟨hmarks, hpositional⟩ := run_positional named run
      refine ⟨parts.map fun part => ⟨part, part.places.map fun _ => ""⟩, ?_, ?_, ?_, ?_, nofun⟩
      · simp only [List.map_map, Function.comp_def, List.map_id']
      · simp
      · simp [hmarks]
      · exact fun _ => hpositional

end Collector

namespace Compiler

variable {k : Compiler} {reserved : List String} {c c' : Collector} {sql : String}

theorem writeFrom_written {parts : List Part} (sound : ∀ part ∈ parts, part.IsSound)
    (h : k.writeFrom reserved c (parts.flatMap Part.pieces) = .ok (sql, c')) :
    ∃ written : List NamedPart, written.map (·.part) = parts ∧
      (∀ w ∈ written, w.names.length = w.part.places.length) ∧
      sql = String.join (written.map (NamedPart.text k)) ∧
      (k.style.isNamed = false → c'.positional = c.positional ++ parts.flatMap Part.values) ∧
      (k.style.isNamed = true → Collector.Adds reserved c (written.flatMap (·.names))
        (written.flatMap NamedPart.entries) c') := by
  obtain ⟨marks, run, hsql⟩ := writeFrom_parts sound h
  obtain ⟨written, rfl, names, rfl, adds⟩ := Collector.run_written run
  refine ⟨written, rfl, names, ?_, adds⟩
  rw [hsql, List.zipWith_map, List.zipWith_self]
  rfl

variable {s : Statement}

/-- A SELECT without limits is its head, its body and its ordering. -/
theorem writeFrom_select (unpaged : s.isPaginated = false)
    (h : k.writeFrom reserved c (s.selectPieces k.dialect) = .ok (sql, c')) :
    ∃ body ordering c₁,
      k.writeFrom reserved c (.text s.selectWord :: Statement.projectionPieces s.columns) =
        .ok (s.headText k, c) ∧
      k.writeFrom reserved c (s.bodyParts.flatMap Part.pieces) = .ok (body, c₁) ∧
      k.writeFrom reserved c₁ (Statement.orderingPieces s.ordering) = .ok (ordering, c') ∧
      sql = s.headText k ++ body ++ ordering := by
  rw [Statement.selectPieces_body, Statement.pagingPieces_unpaged unpaged, List.append_nil] at h
  obtain ⟨_, ordering, c₁, hcore, hordering, rfl⟩ := writeFrom_append_ok.mp h
  obtain ⟨head, body, c₀, hhead, hbody, rfl⟩ := writeFrom_append_ok.mp hcore
  have plain : (.text s.selectWord :: Statement.projectionPieces s.columns).all Piece.isPlain =
      true := Statement.projectionPieces_isPlain s.columns
  obtain ⟨hword, rfl⟩ := writeFrom_plain plain hhead
  rw [List.map_cons, String.join_cons] at hword
  obtain rfl : head = s.headText k := hword
  exact ⟨body, ordering, c₁, hhead, hbody, hordering, rfl⟩

/-- The counting form of a statement without limits keeps the body and nothing after it. -/
theorem writeFrom_count (unpaged : s.isPaginated = false) {body : String}
    (hhead : k.writeFrom reserved c (.text s.selectWord :: Statement.projectionPieces s.columns) =
      .ok (s.headText k, c))
    (hbody : k.writeFrom reserved c (s.bodyParts.flatMap Part.pieces) = .ok (body, c')) :
    k.writeFrom reserved c (k.countPieces s) =
      .ok (if s.isNested then countingText (s.headText k ++ body) else countHead ++ body, c') := by
  cases nested : s.isNested with
  | true =>
      have pieces : k.countPieces s =
          .text (countHead ++ " FROM (") :: ((.text s.selectWord ::
            Statement.projectionPieces s.columns) ++ s.bodyParts.flatMap Part.pieces ++
              [.text ") AS aggregate_table"]) := by
        rw [← Statement.selectPieces_unordered unpaged s.columns k.dialect]
        simp only [countPieces, Statement.isNested] at nested ⊢
        simp only [nested, unpaged, Bool.true_or, if_true]
        rfl
      rw [pieces]
      refine writeFrom_cons_ok.mpr ⟨_, _, c, writePiece_text _, writeFrom_append_ok.mpr
        ⟨_, _, c', writeFrom_append_ok.mpr ⟨_, _, c, hhead, hbody, rfl⟩,
          writeFrom_cons_ok.mpr ⟨_, _, _, writePiece_text _, rfl, rfl⟩, rfl⟩, ?_⟩
      simp only [if_true, countingText, String.append_assoc, String.append_empty]
  | false =>
      have single : s.selectWord = "SELECT " := by
        have distinct : s.distinct = false := (Bool.or_eq_false_iff.mp nested).2
        rw [Statement.selectWord, distinct]
        rfl
      have pieces : k.countPieces s =
          (.text "SELECT " :: Statement.projectionPieces ["COUNT(*) AS aggregate"]) ++
            s.bodyParts.flatMap Part.pieces := by
        rw [← single, ← Statement.selectPieces_unordered unpaged _ k.dialect]
        simp only [countPieces, Statement.isNested] at nested ⊢
        simp only [nested, unpaged, Bool.or_false, Bool.false_eq_true, if_false]
        rfl
      have projection : Statement.projectionPieces ["COUNT(*) AS aggregate"] =
          [.text "COUNT(*) AS aggregate"] := rfl
      rw [pieces, projection]
      refine writeFrom_append_ok.mpr ⟨countHead, body, c, ?_, hbody, rfl⟩
      exact writeFrom_cons_ok.mpr ⟨_, _, c, writePiece_text _,
        writeFrom_cons_ok.mpr ⟨_, _, c, writePiece_text _, rfl, rfl⟩, rfl⟩

theorem compileCount_of_write (given : s.isRaw = false)
    (readable : s.operation = none ∨ s.operation = some .select)
    (htable : s.requireTable = .ok ()) {parameters : Value}
    (hwrite : k.write s.reservedNames (k.countPieces s) = .ok (sql, parameters)) :
    k.compileCount s = .ok ⟨sql, parameters, some Operation.select.text, s.table⟩ := by
  have unfit : s.operation.filter (· ≠ .select) = none := by
    obtain h | h := readable
    · rw [h]; rfl
    · rw [h]; rfl
  simp only [compileCount, given, unfit, Bool.false_eq_true, if_false]
  exact ok_bind_iff.mpr ⟨_, htable, ok_bind_iff.mpr ⟨_, hwrite, rfl⟩⟩

/-- With a limit or an offset the whole text is counted. -/
theorem write_count_paginated (paginated : s.isPaginated = true) {parameters : Value}
    (h : k.write reserved (s.selectPieces k.dialect) = .ok (sql, parameters)) :
    k.write reserved (k.countPieces s) = .ok (countingText sql, parameters) := by
  have pieces : k.countPieces s = .text (countHead ++ " FROM (") ::
      (s.selectPieces k.dialect ++ [.text ") AS aggregate_table"]) := by
    simp only [countPieces, paginated, Bool.or_true, if_true]
    rfl
  obtain ⟨last, hlast, rfl⟩ := write_ok.mp h
  rw [pieces]
  refine write_ok.mpr ⟨last, writeFrom_cons_ok.mpr ⟨_, _, _, writePiece_text _,
    writeFrom_append_ok.mpr ⟨_, _, _, hlast, writeFrom_cons_ok.mpr
      ⟨_, _, _, writePiece_text _, rfl, rfl⟩, rfl⟩, ?_⟩, rfl⟩
  simp only [countingText, String.append_assoc, String.append_empty]

/-- Without them the body is written as it stands in the SELECT. -/
theorem write_count_unpaged (unpaged : s.isPaginated = false) {whole : Compiled}
    (h : k.write s.reservedNames (s.selectPieces k.dialect) = .ok (whole.sql, whole.parameters)) :
    ∃ sql parameters body,
      k.write s.reservedNames (k.countPieces s) = .ok (sql, parameters) ∧
      ∀ operation table, whole.CountedBy k s body ⟨sql, parameters, operation, table⟩ := by
  obtain ⟨last, hlast, hparameters⟩ := write_ok.mp h
  obtain ⟨text, ordering, c₁, hhead, hbody, hordering, hsql⟩ := writeFrom_select unpaged hlast
  have hcount := writeFrom_count unpaged hhead hbody
  obtain ⟨body, parts, names, rfl, positional, named⟩ :=
    writeFrom_written s.bodyParts_isSound hbody
  rw [← Statement.pieces_orderingParts] at hordering
  obtain ⟨ordered, orderedParts, orderedNames, rfl, orderedPositional, orderedNamed⟩ :=
    writeFrom_written (Statement.orderingParts_isSound s.ordering) hordering
  have bare := NamedPart.eq_of_placeless orderedParts orderedNames
    (Statement.orderingParts_places s.ordering)
  have orderedText : String.join (ordered.map (NamedPart.text k)) = s.orderingText k := by
    rw [bare, List.map_map]
    exact Statement.text_orderingParts k s
  have orderedEntries : ordered.flatMap NamedPart.entries =
      (Statement.orderingParts s.ordering).flatMap Part.supplied := by
    rw [bare, List.flatMap_map]
    rfl
  refine ⟨_, _, body, write_ok.mpr ⟨c₁, hcount, rfl⟩, fun operation table => ?_⟩
  refine ⟨parts, names, by rw [hsql, orderedText], rfl, fun style => ?_, fun style => ?_⟩
  · rw [hparameters, Collector.parameters, Collector.parameters, style, orderedPositional style,
      positional style]
    exact ⟨rfl, rfl⟩
  · have adds := (named style).trans (orderedNamed style)
    have counted : c₁.named = body.flatMap NamedPart.entries := (named style).named
    rw [orderedEntries] at adds
    rw [hparameters, Collector.parameters, Collector.parameters, style, adds.named, counted]
    exact ⟨rfl, rfl, adds.named ▸ adds.distinct List.nodup_nil⟩

/-- Whatever compiles as a SELECT can be counted. With limits its whole text is counted, with the
same parameters. Without them the ordering is left out and the body stays as it is, inside the text
that is counted where rows are grouped, filtered by group or made distinct, and otherwise after a
projection of its own, so that the columns do not matter. -/
theorem count_follows_select (k : Compiler) {s : Statement} (given : s.isRaw = false)
    (readable : s.operation = none ∨ s.operation = some .select) {c : Compiled}
    (h : k.compile { s with operation := some .select } = .ok c) :
    ∃ counted, k.compileCount s = .ok counted ∧
      counted.operation = c.operation ∧ counted.table = c.table ∧
      (s.isPaginated = true →
        counted.sql = countingText c.sql ∧ counted.parameters = c.parameters) ∧
      (s.isPaginated = false → ∃ body, c.CountedBy k s body counted) ∧
      (s.isPaginated = false → s.isNested = false →
        ∀ columns, k.compileCount { s with columns := columns } = .ok counted) := by
  obtain ⟨htable, hwrite, operation, table⟩ := (compile_select_ok given).mp h
  rw [operation, table]
  cases paginated : s.isPaginated with
  | true =>
      have counted := write_count_paginated paginated hwrite
      exact ⟨_, compileCount_of_write given readable htable counted, rfl, rfl,
        fun _ => ⟨rfl, rfl⟩, nofun, nofun⟩
  | false =>
      obtain ⟨sql, parameters, body, counted, countedBy⟩ := write_count_unpaged paginated hwrite
      refine ⟨_, compileCount_of_write given readable htable counted, rfl, rfl, nofun,
        fun _ => ⟨body, countedBy _ _⟩, fun _ nested columns => ?_⟩
      have replaced : k.countPieces { s with columns := columns } = k.countPieces s := by
        simp only [Statement.isNested] at nested
        simp only [Statement.isPaginated] at paginated
        simp only [countPieces, Statement.isPaginated, nested, paginated, Bool.or_false,
          Bool.false_eq_true, if_false]
      rw [← replaced] at counted
      exact compileCount_of_write (s := { s with columns := columns }) given readable htable counted

/-- A SELECT whose ordering claims the name that would be generated first. -/
def rankedSelect : Statement where
  table := some "users u"
  columns := ["u.id", "u.name"]
  predicates := [.leaf "u.age" .gt (.one (.int 18)) .and,
    .raw "u.state = :p2" (some (.map [(":p2", .text "on")])) .and]
  ordering := [⟨⟨.raw "rank(u.id, :p1)", some (.map [("p1", .int 5)])⟩, .ascending⟩,
    ⟨⟨.column "u.name", none⟩, .descending⟩]

theorem count_follows_select_of_ranked :
    ∃ k : Compiler, rankedSelect.isRaw = false ∧ rankedSelect.operation = none ∧
      ∃ c counted, k.compile { rankedSelect with operation := some .select } = .ok c ∧
        k.compileCount rankedSelect = .ok counted ∧
        c.sql = "SELECT u.id, u.name FROM users AS u WHERE u.age > :p3 AND u.state = :p2 " ++
          "ORDER BY rank(u.id, :p1), u.name DESC" ∧
        counted.sql = "SELECT COUNT(*) AS aggregate FROM users AS u WHERE u.age > :p3 AND " ++
          "u.state = :p2" ∧
        c.parameters = Fields.toValue [("p3", .int 18), ("p2", .text "on"), ("p1", .int 5)] ∧
        counted.parameters = Fields.toValue [("p3", .int 18), ("p2", .text "on")] ∧
        ∃ body, c.CountedBy k rankedSelect body counted := by
  let k : Compiler := { style := .named }
  have whole : (k.compile { rankedSelect with operation := some .select }).toOption.map (·.sql) =
      some ("SELECT u.id, u.name FROM users AS u WHERE u.age > :p3 AND u.state = :p2 " ++
        "ORDER BY rank(u.id, :p1), u.name DESC") := by decide +kernel
  have short : (k.compileCount rankedSelect).toOption.map (·.sql) =
      some ("SELECT COUNT(*) AS aggregate FROM users AS u WHERE u.age > :p3 AND " ++
        "u.state = :p2") := by decide +kernel
  have parameters :
      (k.compile { rankedSelect with operation := some .select }).toOption.map (·.parameters) =
        some (Fields.toValue [("p3", .int 18), ("p2", .text "on"), ("p1", .int 5)]) := rfl
  have shortParameters : (k.compileCount rankedSelect).toOption.map (·.parameters) =
      some (Fields.toValue [("p3", .int 18), ("p2", .text "on")]) := rfl
  cases hc : k.compile { rankedSelect with operation := some .select } with
  | error e => rw [hc] at whole; cases whole
  | ok c =>
      rw [hc] at whole parameters
      obtain ⟨counted, hcounted, -, -, -, unpaged, -⟩ :=
        count_follows_select k (s := rankedSelect) rfl (.inl rfl) hc
      rw [hcounted] at short shortParameters
      exact ⟨k, rfl, rfl, c, counted, hc, hcounted, Option.some.inj whole, Option.some.inj short,
        Option.some.inj parameters, Option.some.inj shortParameters, unpaged rfl⟩

end Compiler
end FluentSql
