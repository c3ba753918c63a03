import FluentSql.Proofs.GuardedWrites
import FluentSql.Proofs.Named
import FluentSql.Proofs.Positional

/-!
Values that writes keep. INSERT and UPDATE take the entries of a map under the names of their keys,
and hand over one column and one placeholder for each name, in the order of the map. Keys that
differ in the blanks around them have one name, under which the last of their values is kept; where
no two keys do, every value is kept.
-/

namespace FluentSql

namespace Fields

variable {α : Type}

theorem keys_ofPairs_nodup (pairs : List (String × α)) : (keys (ofPairs pairs)).Nodup := by
  have all (fields more : List (String × α)) (distinct : (keys fields).Nodup) :
      (keys (insertAll fields more)).Nodup := by
    induction more generalizing fields with
    | nil => exact distinct
    | cons field more ih =>
        refine ih (insert fields field.1 field.2) ?_
        rw [keys_insert]
        split
        · exact distinct
        · next new =>
            rw [← List.concat_eq_append]
            exact List.Nodup.concat new distinct
  exact all [] pairs List.nodup_nil

/-- Pairs are kept as they stand when no name comes twice. -/
theorem ofPairs_eq_iff {pairs : List (String × α)} :
    ofPairs pairs = pairs ↔ (keys pairs).Nodup := by
  constructor
  · intro kept
    rw [← kept]
    exact keys_ofPairs_nodup pairs
  · exact ofPairs_of_nodup

end Fields

namespace Terminal

/-- The entries of a map under the names of their keys, without the blanks around them. -/
def namedValues (entries : List (Value × Value)) : List (String × Value) :=
  entries.map fun (key, v) => (Text.trim (key.asText?.getD ""), v)

theorem columnValues_map {operation : Operation} {entries : List (Value × Value)}
    {values : List (String × Value)} (h : columnValues operation (.map entries) = .ok values) :
    values = Fields.ofPairs (namedValues entries) := by
  cases entries with
  | nil => cases h
  | cons first rest =>
      obtain ⟨pairs, read, h⟩ := ok_bind_iff.mp h
      cases h
      refine congrArg Fields.ofPairs (map_of_mapM (fun entry pair made => ?_) read)
      obtain ⟨key, v⟩ := entry
      obtain ⟨name, checked, made⟩ := ok_bind_iff.mp made
      cases made
      obtain ⟨s, rfl, rfl, -⟩ := Identifier.check_ok.mp checked
      rfl

end Terminal

theorem Collector.bindAll_placeholders (style : Style) (reserved : List String) (c : Collector)
    (vs : List Value) :
    ∃ names : List String, names.length = vs.length ∧
      (c.bindAll style reserved vs).1 = names.map style.placeholder := by
  cases named : style.isNamed with
  | true =>
      obtain ⟨names, c', bound, length, -⟩ := @bindAll_named style named reserved c vs
      exact ⟨names, length, congrArg Prod.fst bound⟩
  | false =>
      refine ⟨vs.map fun _ => "", List.length_map _, ?_⟩
      rw [bindAll_positional named, List.map_map]
      rfl

namespace Compiler

variable (k : Compiler)

def tableText (reference : String) : String :=
  String.join ((Statement.tablePieces reference).map (Piece.plainText k))

/-- The text of an INSERT into columns, with named placeholders for their values. -/
def insertText (reference : String) (columns names : List String) : String :=
  String.join ["INSERT INTO ", k.tableText reference, " (",
    ", ".intercalate (columns.map k.writeName), ") VALUES (",
    ", ".intercalate (names.map k.style.placeholder), ")"]

/-- The text of an UPDATE up to its conditions, with named placeholders for the values of columns.
-/
def updateText (reference : String) (columns names : List String) : String :=
  "UPDATE " ++ k.tableText reference ++ " SET " ++ ", ".intercalate
    (List.zipWith (fun column name => k.writeName column ++ " = " ++ k.style.placeholder name)
      columns names)

theorem join_separated (separator : String) (pss : List (List Piece)) :
    String.join ((Piece.separated separator pss).map (Piece.plainText k)) =
      separator.intercalate (pss.map fun ps => String.join (ps.map (Piece.plainText k))) := by
  induction pss with
  | nil => rfl
  | cons ps pss ih =>
      cases pss with
      | nil => simp only [Piece.separated, List.map_cons, List.map_nil,
          String.intercalate_singleton]
      | cons ps' pss =>
          simp only [Piece.separated, List.map_append, List.map_cons, String.join_append,
            String.join_cons, String.intercalate_cons_cons] at ih ⊢
          rw [ih, Piece.plainText, String.append_assoc]

variable {k} {reserved : List String} {c c' : Collector} {s : Statement} {sql : String}

/-- Assignments with a separator between them. -/
theorem writeFrom_assignments (separator : String) (values : List (String × Value)) :
    k.writeFrom reserved c (Piece.separated separator (values.map fun entry =>
        [.name entry.1, .text " = ", .bound entry.2])) =
      .ok (separator.intercalate
          (List.zipWith (fun column mark => k.writeName column ++ " = " ++ mark)
            (Fields.keys values) (c.bindAll k.style reserved (values.map (·.2))).1),
        (c.bindAll k.style reserved (values.map (·.2))).2) := by
  induction values generalizing c with
  | nil => rfl
  | cons entry values ih =>
      obtain ⟨column, v⟩ := entry
      have first := @writeFrom_assignment k reserved c column v
      rw [Collector.bindAll_singleton, String.join_cons, String.join_nil,
        String.append_empty] at first
      cases values with
      | nil =>
          simp only [List.map_cons, List.map_nil, Piece.separated, Fields.keys, Collector.bindAll,
            List.zipWith_cons_cons, List.zipWith_nil_right, String.intercalate_singleton]
          exact first
      | cons entry values =>
          refine writeFrom_append_ok.mpr ⟨_, _, _, first,
            writeFrom_cons_ok.mpr ⟨_, _, _, writePiece_text separator, ih, rfl⟩, ?_⟩
          simp only [List.map_cons, Fields.keys, Collector.bindAll, List.zipWith_cons_cons,
            String.intercalate_cons_cons, String.append_assoc]

theorem written_insert (h : k.writeFrom reserved c s.insertPieces = .ok (sql, c')) :
    ∃ names : List String, names.length = s.values.length ∧
      sql = k.insertText (s.table.getD "") (Fields.keys s.values) names := by
  obtain ⟨names, length, marks⟩ :=
    Collector.bindAll_placeholders k.style reserved c (s.values.map (·.2))
  refine ⟨names, length.trans (List.length_map _), ?_⟩
  have layout : s.insertPieces = s.insertHead ++
      (Piece.separated ", " ((s.values.map (·.2)).map fun v => [.bound v]) ++ [.text ")"]) := by
    simp only [Statement.insertPieces, Statement.insertHead, List.map_map, Function.comp_def,
      List.append_assoc, List.cons_append, List.nil_append]
  have columns : String.join (s.insertHead.map (Piece.plainText k)) = "INSERT INTO " ++
      k.tableText (s.table.getD "") ++ " (" ++
        ", ".intercalate ((Fields.keys s.values).map k.writeName) ++ ") VALUES (" := by
    simp only [Statement.insertHead, List.map_append, List.map_cons, List.map_nil,
      String.join_append, String.join_cons, String.join_nil, join_separated, Piece.plainText,
      Fields.keys, List.map_map, Function.comp_def, String.append_empty, String.append_assoc]
    rfl
  rw [layout] at h
  obtain ⟨head, _, c₁, written, rest, rfl⟩ := writeFrom_append_ok.mp h
  obtain ⟨front, rfl⟩ := writeFrom_plain s.insertHead_isPlain written
  obtain ⟨values, _, c₂, places, closing, rfl⟩ := writeFrom_append_ok.mp rest
  rw [writeFrom_places] at places
  have shown : _ = values := congrArg Prod.fst (Except.ok.inj places)
  obtain ⟨_, _, _, last, none, rfl⟩ := writeFrom_cons_ok.mp closing
  cases last
  cases none
  rw [front, columns, ← shown, marks, insertText]
  simp only [String.join_cons, String.join_nil, String.append_assoc, String.append_empty]

theorem written_update (h : k.writeFrom reserved c s.updatePieces = .ok (sql, c')) :
    ∃ (names : List String) (conditions : String), names.length = s.values.length ∧
      sql = k.updateText (s.table.getD "") (Fields.keys s.values) names ++ conditions ∧
      (conditions = "" ∨ ∃ rest, conditions = " WHERE " ++ rest) := by
  obtain ⟨names, length, marks⟩ :=
    Collector.bindAll_placeholders k.style reserved c (s.values.map (·.2))
  let head : List Piece := .text "UPDATE " :: Statement.tablePieces (s.table.getD "") ++
    [.text " SET "]
  have layout : s.updatePieces = head ++ (Piece.separated ", " (s.values.map fun entry =>
      [.name entry.1, .text " = ", .bound entry.2]) ++
        Statement.conditionPieces "WHERE" s.predicates) := by
    simp only [Statement.updatePieces, head, List.append_assoc, List.cons_append, List.nil_append]
  have plain : head.all Piece.isPlain = true := by
    simp only [head, List.all_append, List.all_cons, Statement.tablePieces_isPlain]
    rfl
  have start : String.join (head.map (Piece.plainText k)) =
      "UPDATE " ++ k.tableText (s.table.getD "") ++ " SET " := by
    simp only [head, List.map_append, List.map_cons, List.map_nil, String.join_append,
      String.join_cons, String.join_nil, Piece.plainText, String.append_empty]
    rfl
  rw [layout] at h
  obtain ⟨_, _, c₁, written, rest, rfl⟩ := writeFrom_append_ok.mp h
  obtain ⟨front, rfl⟩ := writeFrom_plain plain written
  obtain ⟨values, conditions, c₂, assignments, closing, rfl⟩ := writeFrom_append_ok.mp rest
  rw [writeFrom_assignments] at assignments
  have shown : _ = values := congrArg Prod.fst (Except.ok.inj assignments)
  refine ⟨names, conditions, length.trans (List.length_map _), ?_, ?_⟩
  · rw [front, start, ← shown, marks, updateText, List.zipWith_map_right]
    simp only [String.append_assoc]
  · simp only [Statement.conditionPieces] at closing
    split at closing
    · exact .inl (writeFrom_nil_ok.mp closing).1
    · exact .inr (written_head closing)

theorem bindParameters_values {values : List (String × Value)} (some : values ≠ [])
    (more : List Value) : Compiled.bindParameters (.list (values.map (·.2) ++ more)) =
      .ok (.tuple (values.map (·.2) ++ more)) := by
  obtain ⟨first, rest, rfl⟩ := List.exists_cons_of_ne_nil some
  rfl

theorem requireValues_ok {operation : Operation} {u : Unit}
    (h : s.requireValues operation = .ok u) : s.values ≠ [] := by
  simp only [Statement.requireValues] at h
  split at h
  · cases h
  · next given => exact fun none => given (List.isEmpty_iff.mpr none)

variable {compiled : Compiled} (h : k.compile s = .ok compiled) (given : s.isRaw = false)
include h given

theorem compile_insert_values (held : s.operation = some .insert) :
    (∃ names : List String, names.length = s.values.length ∧
        compiled.sql = k.insertText (s.table.getD "") (Fields.keys s.values) names) ∧
      (k.style.isNamed = false → Compiled.bindParameters compiled.parameters =
        .ok (.tuple (s.values.map (·.2)))) := by
  obtain ⟨operation, ps, claimed, hps, hwrite⟩ := compile_pieces_ok given h
  obtain rfl : operation = .insert := Option.some.inj (claimed.symm.trans held)
  obtain ⟨-, -, rfl⟩ := Statement.piecesFor_insert hps
  obtain ⟨_, -, required⟩ := ok_bind_iff.mp hps
  obtain ⟨_, required, -⟩ := ok_bind_iff.mp required
  obtain ⟨last, written, -⟩ := write_ok.mp hwrite
  refine ⟨written_insert written, fun positional => ?_⟩
  obtain ⟨operation, claimed, parameters⟩ := (positional_parameters_eq positional given).1 _ h
  obtain rfl : operation = .insert := Option.some.inj (claimed.symm.trans held)
  have bound := bindParameters_values (requireValues_ok required) []
  rw [List.append_nil] at bound
  rw [parameters]
  exact bound

theorem compile_update_values (held : s.operation = some .update) :
    (∃ (names : List String) (conditions : String), names.length = s.values.length ∧
        compiled.sql = k.updateText (s.table.getD "") (Fields.keys s.values) names ++ conditions ∧
        (conditions = "" ∨ ∃ rest, conditions = " WHERE " ++ rest)) ∧
      (k.style.isNamed = false → Compiled.bindParameters compiled.parameters =
        .ok (.tuple (s.values.map (·.2) ++ Node.valuesOf s.predicates))) := by
  obtain ⟨operation, ps, claimed, hps, hwrite⟩ := compile_pieces_ok given h
  obtain rfl : operation = .update := Option.some.inj (claimed.symm.trans held)
  obtain ⟨-, rfl⟩ := Statement.piecesFor_update hps
  obtain ⟨_, -, required⟩ := ok_bind_iff.mp hps
  obtain ⟨_, required, -⟩ := ok_bind_iff.mp required
  obtain ⟨last, written, -⟩ := write_ok.mp hwrite
  refine ⟨written_update written, fun positional => ?_⟩
  obtain ⟨operation, claimed, parameters⟩ := (positional_parameters_eq positional given).1 _ h
  obtain rfl : operation = .update := Option.some.inj (claimed.symm.trans held)
  rw [parameters]
  exact bindParameters_values (requireValues_ok required) _

end Compiler

namespace Session

variable {s : Session} {name : String} {entries : List (Value × Value)}
  {pairs : List (String × Value)}

/-- What is handed over to insert a map, and to update by it, is made from the given pairs: it has
one column and one placeholder for each of them, in order, and in a positional style its parameters
begin with their values. Nothing follows the values of an INSERT, and those of an UPDATE are
followed by the values of its conditions. -/
structure HandsOver (s : Session) (name : String) (entries : List (Value × Value))
    (pairs : List (String × Value)) : Prop where
  inserts : ∀ sql parameters,
    .exec sql parameters ∈ (s.step name (.finish (.insert (.map entries)))).2.events →
      (∃ names : List String, names.length = pairs.length ∧
        sql = s.compiler.insertText ((s.builderOrNew name).statement.table.getD "")
          (Fields.keys pairs) names) ∧
      (s.compiler.style.isNamed = false → parameters = .tuple (pairs.map (·.2)))
  updates : ∀ sql parameters,
    .exec sql parameters ∈ (s.step name (.finish (.update (.map entries)))).2.events →
      (∃ (names : List String) (conditions : String), names.length = pairs.length ∧
        sql = s.compiler.updateText ((s.builderOrNew name).statement.table.getD "")
          (Fields.keys pairs) names ++ conditions ∧
        (conditions = "" ∨ ∃ rest, conditions = " WHERE " ++ rest)) ∧
      (s.compiler.style.isNamed = false → parameters =
        .tuple (pairs.map (·.2) ++ Node.valuesOf (s.builderOrNew name).statement.predicates))

/-- What a call that takes a map hands over was compiled with the values of the map by name. -/
theorem handed_compiled {t : Terminal} {operation : Operation}
    (structured : (s.builderOrNew name).statement.isRaw = false)
    (claims : t.prepare (s.builderOrNew name).statement =
      Terminal.claimWith (s.builderOrNew name).statement operation (.map entries))
    (unlimited : ∀ s, t.limited s = s) (uncounted : t.isCount = false) {sql : String}
    {parameters : Value} (handed : .exec sql parameters ∈ (s.step name (.finish t)).2.events) :
    ∃ compiled, s.compiler.compile { (s.builderOrNew name).statement with
        operation := some operation,
        values := Fields.ofPairs (Terminal.namedValues entries) } = .ok compiled ∧
      sql = compiled.sql ∧ Compiled.bindParameters compiled.parameters = .ok parameters := by
  obtain ⟨b, o, finished, text, bound⟩ := s.finish_handed name handed
  obtain ⟨left, finished⟩ := Builder.finish_ok finished
  obtain ⟨-, -, compiled⟩ := Terminal.finish_ok structured finished
  obtain ⟨values, read, rfl⟩ := Terminal.finish_claimWith claims unlimited finished
  obtain rfl := Terminal.columnValues_map read
  rw [uncounted] at compiled
  exact ⟨o.compiled, compiled, text, bound⟩

theorem handsOver_named (structured : (s.builderOrNew name).statement.isRaw = false) :
    s.HandsOver name entries (Fields.ofPairs (Terminal.namedValues entries)) := by
  constructor
  · intro sql parameters handed
    have claims : (Terminal.insert (.map entries)).prepare (s.builderOrNew name).statement =
        Terminal.claimWith (s.builderOrNew name).statement .insert (.map entries) := by
      simp only [Terminal.prepare, structured]
      rfl
    obtain ⟨compiled, h, rfl, bound⟩ := handed_compiled structured claims (fun _ => rfl) rfl handed
    obtain ⟨text, positional⟩ := Compiler.compile_insert_values h structured rfl
    exact ⟨text, fun style => Except.ok.inj (bound.symm.trans (positional style))⟩
  · intro sql parameters handed
    have claims : (Terminal.update (.map entries)).prepare (s.builderOrNew name).statement =
        Terminal.claimWith (s.builderOrNew name).statement .update (.map entries) := by
      simp only [Terminal.prepare, structured]
      rfl
    obtain ⟨compiled, h, rfl, bound⟩ := handed_compiled structured claims (fun _ => rfl) rfl handed
    obtain ⟨text, positional⟩ := Compiler.compile_update_values h structured rfl
    exact ⟨text, fun style => Except.ok.inj (bound.symm.trans (positional style))⟩

/-- An insertion and an update by a map hand over its values by name. These are the values of the
map as they stand when no two of its keys have one name, and only then. -/
theorem values_are_handed_over_by_name
    (structured : (s.builderOrNew name).statement.isRaw = false)
    (entries : List (Value × Value)) :
    s.HandsOver name entries (Fields.ofPairs (Terminal.namedValues entries)) ∧
      (Fields.ofPairs (Terminal.namedValues entries) = Terminal.namedValues entries ↔
        (Fields.keys (Terminal.namedValues entries)).Nodup) :=
  ⟨handsOver_named structured, Fields.ofPairs_eq_iff⟩

/-- A session with an engine and a builder that has nothing but a table. -/
def tableSession : Session :=
  let new : Session := { compiler := {}, provider := some ⟨.engine, true⟩ }
  (new.run [("q", .chain (.table (.text "t")))]).1

theorem values_are_handed_over_by_name_of_distinct :
    ∃ entries, entries = [(.text "a", .int 1), (.text " b ", .int 2)] ∧
      (tableSession.builderOrNew "q").statement.isRaw = false ∧
      .exec "INSERT INTO t (a, b) VALUES (?, ?)" (.tuple [.int 1, .int 2]) ∈
        (tableSession.step "q" (.finish (.insert (.map entries)))).2.events ∧
      tableSession.HandsOver "q" entries (Terminal.namedValues entries) := by
  let entries : List (Value × Value) := [(.text "a", .int 1), (.text " b ", .int 2)]
  have structured : (tableSession.builderOrNew "q").statement.isRaw = false := by decide +kernel
  have written : some "INSERT INTO t (a, b) VALUES (?, ?)" ∈
      (tableSession.step "q" (.finish (.insert (.map entries)))).2.events.map Event.sql? := by
    decide +kernel
  have distinct : (Fields.keys (Terminal.namedValues entries)).Nodup := by decide +kernel
  have positional : tableSession.compiler.style.isNamed = false := by decide +kernel
  obtain ⟨handsOver, kept⟩ := values_are_handed_over_by_name structured entries
  rw [kept.mpr distinct] at handsOver
  obtain ⟨parameters, handed⟩ := Event.exec_of_sql written
  have values := (handsOver.inserts _ _ handed).2 positional
  subst values
  exact ⟨entries, rfl, structured, handed, handsOver⟩

/-- Two keys that differ in a blank have one name, and the value of the first one is lost. -/
theorem blank_key_loses_value :
    ∃ entries, entries = [(.text "a", .int 1), (.text " a", .int 2)] ∧
      (∀ entry ∈ entries, Identifier.check "column" entry.1 = .ok "a") ∧
      (tableSession.builderOrNew "q").statement.isRaw = false ∧
      .exec "INSERT INTO t (a) VALUES (?)" (.tuple [.int 2]) ∈
        (tableSession.step "q" (.finish (.insert (.map entries)))).2.events ∧
      ¬ tableSession.HandsOver "q" entries (Terminal.namedValues entries) := by
  let entries : List (Value × Value) := [(.text "a", .int 1), (.text " a", .int 2)]
  have accepted : ∀ entry ∈ entries, Identifier.check "column" entry.1 = .ok "a" := by
    rintro entry hentry
    simp only [entries, List.mem_cons, List.not_mem_nil, or_false] at hentry
    obtain rfl | rfl := hentry
    · exact toOption_some.mp (by decide +kernel)
    · exact toOption_some.mp (by decide +kernel)
  have structured : (tableSession.builderOrNew "q").statement.isRaw = false := by decide +kernel
  have written : some "INSERT INTO t (a) VALUES (?)" ∈
      (tableSession.step "q" (.finish (.insert (.map entries)))).2.events.map Event.sql? := by
    decide +kernel
  have positional : tableSession.compiler.style.isNamed = false := by decide +kernel
  have kept : Fields.ofPairs (Terminal.namedValues entries) = [("a", .int 2)] := rfl
  obtain ⟨parameters, handed⟩ := Event.exec_of_sql written
  have one := ((handsOver_named structured).inserts _ _ handed).2 positional
  rw [kept] at one
  subst one
  refine ⟨entries, rfl, accepted, structured, handed, fun handsOver => ?_⟩
  have both : Value.tuple [.int 2] = .tuple [.int 1, .int 2] :=
    (handsOver.inserts _ _ handed).2 positional
  cases both

end Session
end FluentSql
