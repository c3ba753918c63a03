import FluentSql.Proofs.Layout

/-!
Writing a layout. The writer passes over the parts from left to right and hands the collector from
one to the next, so its run is a chain of steps, one for each part. A step binds the values of the
part in order, or takes in the parameters of a fragment, and gives the placeholders that the text of
the part shows.
-/

namespace FluentSql

namespace Collector

variable (style : Style) (reserved : List String)

/-- Binds values one after the other. -/
def bindAll (c : Collector) : List Value → List String × Collector
  | [] => ([], c)
  | v :: vs =>
    let first := c.bind style reserved v
    let rest := bindAll first.2 vs
    (first.1 :: rest.1, rest.2)

theorem bindAll_singleton (c : Collector) (v : Value) :
    c.bindAll style reserved [v] =
      ([(c.bind style reserved v).1], (c.bind style reserved v).2) := rfl

/-- What the collector does at a part. -/
def collect (c : Collector) : Part → Except Error (List String × Collector)
  | .fragment clause _ params => do .ok ([], ← c.extend style clause params)
  | part => .ok (c.bindAll style reserved part.places)

/-- A run over parts, with the placeholders that each part was given. -/
inductive Run : Collector → List Part → List (List String) → Collector → Prop
  | nil (c : Collector) : Run c [] [] c
  | cons {c c₁ c₂ : Collector} {part : Part} {marks : List String} {parts : List Part}
      {rest : List (List String)} (step : c.collect style reserved part = .ok (marks, c₁))
      (run : Run c₁ parts rest c₂) : Run c (part :: parts) (marks :: rest) c₂

end Collector

namespace Compiler

variable {k : Compiler} {reserved : List String} {c c' : Collector} {sql : String}

theorem writeFrom_nil_ok : k.writeFrom reserved c [] = .ok (sql, c') ↔ sql = "" ∧ c' = c := by
  simp [writeFrom, eq_comm]

/-- What is written after something else, and the collector it leaves. -/
theorem followed_ok {x : Except Error (String × Collector)}
    (rest : Collector → Except Error (String × Collector)) :
    (x >>= fun head => rest head.2 >>= fun tail => .ok (head.1 ++ tail.1, tail.2)) =
        .ok (sql, c') ↔
      ∃ head tail c₁, x = .ok (head, c₁) ∧ rest c₁ = .ok (tail, c') ∧ sql = head ++ tail := by
  constructor
  · intro h
    obtain ⟨⟨head, c₁⟩, hhead, h⟩ := ok_bind_iff.mp h
    obtain ⟨⟨tail, c₂⟩, htail, h⟩ := ok_bind_iff.mp h
    cases h
    exact ⟨head, tail, c₁, hhead, htail, rfl⟩
  · rintro ⟨head, tail, c₁, hhead, htail, rfl⟩
    exact ok_bind_iff.mpr ⟨_, hhead, ok_bind_iff.mpr ⟨_, htail, rfl⟩⟩

theorem writeFrom_cons_ok {p : Piece} {ps : List Piece} :
    k.writeFrom reserved c (p :: ps) = .ok (sql, c') ↔
      ∃ head tail c₁, k.writePiece reserved c p = .ok (head, c₁) ∧
        k.writeFrom reserved c₁ ps = .ok (tail, c') ∧ sql = head ++ tail := by
  rw [← followed_ok fun c => k.writeFrom reserved c ps]
  rfl

/-- The writer works through pieces from left to right. -/
theorem writeFrom_append (c : Collector) (ps qs : List Piece) :
    k.writeFrom reserved c (ps ++ qs) =
      k.writeFrom reserved c ps >>= fun head =>
        k.writeFrom reserved head.2 qs >>= fun tail => .ok (head.1 ++ tail.1, tail.2) := by
  induction ps generalizing c with
  | nil =>
      change k.writeFrom reserved c qs = k.writeFrom reserved c qs >>= _
      cases k.writeFrom reserved c qs with
      | error e => rfl
      | ok tail => simp only [bind, Except.bind, String.empty_append]
  | cons p ps ih =>
      rw [List.cons_append, writeFrom, writeFrom]
      cases k.writePiece reserved c p with
      | error e => rfl
      | ok first =>
          simp only [bind, Except.bind, ih]
          cases k.writeFrom reserved first.2 ps with
          | error e => rfl
          | ok head =>
              simp only
              cases k.writeFrom reserved head.2 qs with
              | error e => rfl
              | ok tail => simp only [String.append_assoc]

theorem writeFrom_append_ok {ps qs : List Piece} :
    k.writeFrom reserved c (ps ++ qs) = .ok (sql, c') ↔
      ∃ head tail c₁, k.writeFrom reserved c ps = .ok (head, c₁) ∧
        k.writeFrom reserved c₁ qs = .ok (tail, c') ∧ sql = head ++ tail := by
  rw [writeFrom_append]
  exact followed_ok fun c => k.writeFrom reserved c qs

theorem writeFrom_plain {ps : List Piece} (plain : ps.all Piece.isPlain = true)
    (h : k.writeFrom reserved c ps = .ok (sql, c')) :
    sql = String.join (ps.map (Piece.plainText k)) ∧ c' = c := by
  induction ps generalizing c sql with
  | nil =>
      obtain ⟨rfl, rfl⟩ := writeFrom_nil_ok.mp h
      exact ⟨rfl, rfl⟩
  | cons p ps ih =>
      obtain ⟨hplain, rest⟩ := Bool.and_eq_true_iff.mp plain
      obtain ⟨head, tail, c₁, hp, hps, rfl⟩ := writeFrom_cons_ok.mp h
      have written : head = p.plainText k ∧ c₁ = c := by
        cases p with
        | text s | name s => cases hp; exact ⟨rfl, rfl⟩
        | bound v | fragment clause sql params => cases hplain
        | halt e => cases hp
      obtain ⟨rfl, rfl⟩ := written
      obtain ⟨rfl, rfl⟩ := ih rest hps
      exact ⟨by simp, rfl⟩

theorem writePiece_bound (v : Value) :
    k.writePiece reserved c (.bound v) = .ok (c.bind k.style reserved v) := rfl

theorem writePiece_text (s : String) : k.writePiece reserved c (.text s) = .ok (s, c) := rfl

theorem writePiece_name (s : String) :
    k.writePiece reserved c (.name s) = .ok (k.writeName s, c) := rfl

/-- Values with a separator between their placeholders. -/
theorem writeFrom_places (separator : String) (vs : List Value) :
    k.writeFrom reserved c (Piece.separated separator (vs.map fun v => [.bound v])) =
      .ok (separator.intercalate (c.bindAll k.style reserved vs).1,
        (c.bindAll k.style reserved vs).2) := by
  induction vs generalizing c with
  | nil => simp only [List.map_nil, Piece.separated, writeFrom, Collector.bindAll,
      String.intercalate_nil]
  | cons v vs ih =>
      let first := c.bind k.style reserved v
      cases vs with
      | nil =>
          refine writeFrom_cons_ok.mpr ⟨first.1, "", first.2, writePiece_bound v, rfl, ?_⟩
          simp only [Collector.bindAll, String.intercalate_singleton, String.append_empty, first]
      | cons w vs =>
          refine writeFrom_cons_ok.mpr ⟨first.1, _, first.2, writePiece_bound v,
            writeFrom_cons_ok.mpr ⟨_, _, _, writePiece_text separator, ih, rfl⟩, ?_⟩
          simp only [Collector.bindAll, String.intercalate_cons_cons, String.append_assoc, first]

theorem writeFrom_inserted (v : Value) :
    k.writeFrom reserved c [.bound v] =
      .ok (String.join (c.bindAll k.style reserved [v]).1,
        (c.bindAll k.style reserved [v]).2) := by
  rw [Collector.bindAll_singleton, String.join_cons, String.join_nil]
  exact writeFrom_cons_ok.mpr ⟨_, _, _, writePiece_bound v, rfl, rfl⟩

theorem writeFrom_assignment (column : String) (v : Value) :
    k.writeFrom reserved c [.name column, .text " = ", .bound v] =
      .ok (k.writeName column ++ " = " ++ String.join (c.bindAll k.style reserved [v]).1,
        (c.bindAll k.style reserved [v]).2) :=
  writeFrom_cons_ok.mpr ⟨_, _, _, writePiece_name column,
    writeFrom_cons_ok.mpr ⟨_, _, _, writePiece_text _, writeFrom_inserted v, rfl⟩,
    by rw [String.append_assoc]⟩

theorem writeFrom_leaf (field : String) (operator : Operator) (operand : Operand) :
    k.writeFrom reserved c (Atom.leafPieces field operator operand) =
      .ok (k.writeName field ++
          operand.text operator (c.bindAll k.style reserved (operand.boundValues operator)).1,
        (c.bindAll k.style reserved (operand.boundValues operator)).2) := by
  cases operand with
  | one v =>
      simp only [Atom.leafPieces, Operand.text, Operand.boundValues]
      by_cases null : (v.isNone && operator.testsNull) = true
      · have absent : (v.isNone && (operator.testsNull || operator.testsNotNull)) = true := by
          simp_all
        simp only [null, absent, if_true]
        exact writeFrom_cons_ok.mpr ⟨_, _, _, writePiece_name field,
          writeFrom_cons_ok.mpr ⟨_, _, _, writePiece_text _, rfl, rfl⟩, by simp⟩
      · by_cases notNull : (v.isNone && operator.testsNotNull) = true
        · have absent : (v.isNone && (operator.testsNull || operator.testsNotNull)) = true := by
            simp_all
          simp only [null, notNull, absent, if_true, Bool.false_eq_true, if_false]
          exact writeFrom_cons_ok.mpr ⟨_, _, _, writePiece_name field,
            writeFrom_cons_ok.mpr ⟨_, _, _, writePiece_text _, rfl, rfl⟩, by simp⟩
        · have present : (v.isNone && (operator.testsNull || operator.testsNotNull)) = false := by
            cases hv : v.isNone <;> simp_all
          simp only [null, notNull, present, Bool.false_eq_true, if_false]
          exact writeFrom_cons_ok.mpr ⟨_, _, _, writePiece_name field,
            writeFrom_cons_ok.mpr ⟨_, _, _, writePiece_text _,
              writeFrom_inserted v, rfl⟩, rfl⟩
  | list vs =>
      refine writeFrom_append_ok.mpr ⟨_, ")", _, writeFrom_append_ok.mpr
        ⟨k.writeName field ++ (" " ++ operator.text ++ " ("), _, c, ?_, writeFrom_places _ vs, rfl⟩,
        writeFrom_cons_ok.mpr ⟨_, _, _, writePiece_text _, rfl, rfl⟩, ?_⟩
      · exact writeFrom_cons_ok.mpr ⟨_, _, _, writePiece_name field,
          writeFrom_cons_ok.mpr ⟨_, _, _, writePiece_text _, rfl, rfl⟩, by simp⟩
      · simp only [Operand.text, Operand.boundValues, String.append_assoc]
  | range low high =>
      exact writeFrom_cons_ok.mpr ⟨_, _, _, writePiece_name field,
        writeFrom_cons_ok.mpr ⟨_, _, _, writePiece_text _,
          writeFrom_places " AND " [low, high], rfl⟩,
        by simp only [Operand.text, Operand.boundValues]⟩

/-- Writing one part is one step of the collector. -/
theorem writeFrom_part {part : Part} (sound : part.IsSound)
    (h : k.writeFrom reserved c part.pieces = .ok (sql, c')) :
    ∃ marks, c.collect k.style reserved part = .ok (marks, c') ∧ sql = part.text k marks := by
  cases part with
  | plain pieces =>
      obtain ⟨rfl, rfl⟩ := writeFrom_plain sound h
      exact ⟨[], rfl, rfl⟩
  | leaf field operator operand =>
      have h := (writeFrom_leaf field operator operand).symm.trans h
      cases h
      exact ⟨_, rfl, rfl⟩
  | assignment column v =>
      cases (writeFrom_assignment column v).symm.trans h
      exact ⟨_, rfl, rfl⟩
  | inserted v =>
      cases (writeFrom_inserted v).symm.trans h
      exact ⟨_, rfl, rfl⟩
  | fragment clause text params =>
      obtain ⟨head, tail, c₁, hp, hps, rfl⟩ := writeFrom_cons_ok.mp h
      obtain ⟨rfl, rfl⟩ := writeFrom_nil_ok.mp hps
      obtain ⟨c₂, hextend, hp⟩ := ok_bind_iff.mp hp
      cases hp
      exact ⟨[], ok_bind_iff.mpr ⟨_, hextend, rfl⟩, by simp [Part.text]⟩

/-- Writing a layout is a run of the collector. -/
theorem writeFrom_parts {parts : List Part} (sound : ∀ part ∈ parts, part.IsSound)
    (h : k.writeFrom reserved c (parts.flatMap Part.pieces) = .ok (sql, c')) :
    ∃ marks, Collector.Run k.style reserved c parts marks c' ∧
      sql = String.join (List.zipWith (fun part marks => part.text k marks) parts marks) := by
  induction parts generalizing c sql with
  | nil =>
      obtain ⟨rfl, rfl⟩ := writeFrom_nil_ok.mp h
      exact ⟨[], .nil _, rfl⟩
  | cons part parts ih =>
      obtain ⟨head, tail, c₁, hpart, hparts, rfl⟩ := writeFrom_append_ok.mp h
      obtain ⟨marks, step, rfl⟩ := writeFrom_part (sound part (List.mem_cons_self ..)) hpart
      obtain ⟨rest, run, rfl⟩ :=
        ih (fun p hp => sound p (List.mem_cons_of_mem part hp)) hparts
      exact ⟨marks :: rest, .cons step run, by simp⟩

theorem write_ok {ps : List Piece} {parameters : Value} :
    k.write reserved ps = .ok (sql, parameters) ↔
      ∃ last, k.writeFrom reserved {} ps = .ok (sql, last) ∧
        parameters = last.parameters k.style := by
  constructor
  · intro h
    obtain ⟨⟨_, last⟩, hlast, h⟩ := ok_bind_iff.mp h
    cases h
    exact ⟨last, hlast, rfl⟩
  · rintro ⟨last, hlast, rfl⟩
    exact ok_bind_iff.mpr ⟨_, hlast, rfl⟩

variable {s : Statement} {compiled : Compiled}

/-- A statement that compiles has an operation and meets its rules, and its pieces were written. -/
theorem compile_pieces_ok (given : s.isRaw = false) (h : k.compile s = .ok compiled) :
    ∃ operation ps, s.operation = some operation ∧ s.piecesFor k operation = .ok ps ∧
      k.write s.reservedNames ps = .ok (compiled.sql, compiled.parameters) := by
  have text : s.rawSql = none := by simpa [Statement.isRaw] using given
  simp only [compile, text] at h
  split at h
  · cases h
  · next operation hoperation =>
      obtain ⟨_, -, h⟩ := ok_bind_iff.mp h
      obtain ⟨ps, hps, h⟩ := ok_bind_iff.mp h
      obtain ⟨⟨sql, parameters⟩, hwrite, h⟩ := ok_bind_iff.mp h
      cases h
      exact ⟨operation, ps, hoperation, hps, hwrite⟩

/-- A statement that compiles has an operation, and its layout was written. -/
theorem compile_ok (given : s.isRaw = false) (h : k.compile s = .ok compiled) :
    ∃ operation, s.operation = some operation ∧
      k.write s.reservedNames ((s.parts k operation).flatMap Part.pieces) =
        .ok (compiled.sql, compiled.parameters) := by
  obtain ⟨operation, ps, hoperation, hps, hwrite⟩ := compile_pieces_ok given h
  rw [Statement.piecesFor_ok hps] at hwrite
  exact ⟨operation, hoperation, hwrite⟩

/-- A statement compiles as a SELECT when it has a table and its pieces can be written. -/
theorem compile_select_ok (given : s.isRaw = false) :
    k.compile { s with operation := some .select } = .ok compiled ↔
      s.requireTable = .ok () ∧
        k.write s.reservedNames (s.selectPieces k.dialect) =
          .ok (compiled.sql, compiled.parameters) ∧
        compiled.operation = some Operation.select.text ∧ compiled.table = s.table := by
  have text : s.rawSql = none := by simpa [Statement.isRaw] using given
  simp only [compile, text]
  constructor
  · intro h
    obtain ⟨_, htable, h⟩ := ok_bind_iff.mp h
    obtain ⟨ps, hps, h⟩ := ok_bind_iff.mp h
    obtain ⟨⟨sql, parameters⟩, hwrite, hc⟩ := ok_bind_iff.mp h
    cases hps
    cases hc
    exact ⟨htable, hwrite, rfl, rfl⟩
  · rintro ⟨htable, hwrite, operation, table⟩
    refine ok_bind_iff.mpr ⟨_, htable, ok_bind_iff.mpr ⟨_, rfl,
      ok_bind_iff.mpr ⟨_, hwrite, ?_⟩⟩⟩
    rw [← operation, ← table]

/-- A statement that is counted had its counting layout written. -/
theorem compileCount_ok (h : k.compileCount s = .ok compiled) :
    k.write s.reservedNames ((s.countParts k).flatMap Part.pieces) =
      .ok (compiled.sql, compiled.parameters) := by
  simp only [compileCount] at h
  split at h
  · cases h
  · split at h
    · cases h
    · obtain ⟨_, -, h⟩ := ok_bind_iff.mp h
      obtain ⟨⟨sql, parameters⟩, hwrite, h⟩ := ok_bind_iff.mp h
      cases h
      rw [Statement.pieces_countParts]
      exact hwrite

end Compiler
end FluentSql
