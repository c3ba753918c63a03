import FluentSql.Proofs.CompiledNames
import FluentSql.Proofs.SingleUse

/-!
Structured calls cannot be used to inject. Whatever texts and values they are given, what is
compiled after them has neither quotes nor comments nor the end of a statement in it. A text can
only get in as a name, which has to pass its check, or as a bound value, which is not written at
all.
-/

namespace FluentSql

open Text (Woven)

/-- If the call is a projection that can be read, it is one of stars and names. -/
def Call.projectsNames : Call → Bool
  | .select columns =>
    match projection columns with
    | .ok expressions => expressions.all fun e => e == "*" || Identifier.isDotted e.toList
    | .error _ => true
  | _ => true

/-- The call takes no raw text and projects names only. -/
def Call.isStructured (c : Call) : Bool := !c.takesRaw && c.projectsNames

/-- Nothing in the statement is written as it was given, unless it is harmless. -/
structure Statement.Structured (s : Statement) : Prop where
  vetted : s.Vetted False
  columns : ∀ column ∈ s.columns, Woven column.toList
  values : ∀ name ∈ Fields.keys s.values, Identifier.Accepted name
  text : s.rawSql = none

theorem Call.projection_names {columns : List Value} {expressions : List String}
    (hc : (select columns).isStructured = true) (read : projection columns = .ok expressions) :
    ∀ e ∈ expressions, e = "*" ∨ Identifier.isDotted e.toList = true := by
  obtain ⟨-, names⟩ := Bool.and_eq_true_iff.mp hc
  simp only [projectsNames, read, List.all_eq_true, Bool.or_eq_true, beq_iff_eq] at names
  exact names

theorem Call.woven_projection {columns : List Value} {expressions : List String}
    (hc : (select columns).isStructured = true) (read : projection columns = .ok expressions) :
    ∀ e ∈ expressions, Woven e.toList := by
  intro e he
  obtain rfl | dotted := projection_names hc read e he
  · decide
  · exact woven_name (Identifier.isDotted_chars dotted)

namespace Statement

variable {s s' : Statement} {c : Call}

theorem columns_of_accepted (hc : c.isStructured = true)
    (h : ∀ column ∈ s.columns, Woven column.toList) (accepted : c.Accepted s s') :
    ∀ column ∈ s'.columns, Woven column.toList := by
  cases accepted with
  | select free read => exact Call.woven_projection hc read
  | _ => exact h

theorem text_of_accepted (hc : c.isStructured = true) (h : s.rawSql = none)
    (accepted : c.Accepted s s') : s'.rawSql = none := by
  cases accepted with
  | rawSql => cases hc
  | _ => exact h

theorem residue_of_structured (hc : c.isStructured = true) :
    (c.residue s).columns = s.columns ∧ (c.residue s).rawSql = s.rawSql := by
  cases c with
  | rawSql sql params => cases hc
  | _ => exact ⟨rfl, rfl⟩

theorem Structured.apply (h : s.Structured) (hc : c.isStructured = true) :
    (c.apply s).1.Structured := by
  have vetted : (c.apply s).1.Vetted False :=
    h.vetted.apply fun raw => by
      rw [Call.isStructured, raw] at hc
      cases hc
  have values : ∀ name ∈ Fields.keys (c.apply s).1.values, Identifier.Accepted name := by
    rw [apply_values]
    exact h.values
  obtain accepted | left := c.apply_cases s
  · exact ⟨vetted, columns_of_accepted hc h.columns accepted, values,
      text_of_accepted hc h.text accepted⟩
  · obtain ⟨columns, text⟩ := residue_of_structured (s := s) hc
    refine ⟨vetted, ?_, values, ?_⟩
    · rw [left, columns]
      exact h.columns
    · rw [left, text]
      exact h.text

theorem Structured.finish (h : s.Structured) (k : Compiler) (t : Terminal) :
    (t.finish k s).1.Structured := by
  obtain ⟨_, _, _, left, -⟩ := t.finish_frame k s
  refine ⟨h.vetted.finish k t, ?_, finish_values h.values k t, ?_⟩
  · rw [left]
    exact h.columns
  · rw [left]
    exact h.text

theorem Structured.previewed (h : s.Structured) : (Builder.previewed s).Structured := by
  rw [Builder.previewed]
  split
  · exact h
  · exact { h with vetted := { h.vetted with } }

theorem Built.structured (built : s.Built (·.isStructured = true)) : s.Structured := by
  induction built with
  | new => exact ⟨.new, by simp, by simp [Fields.keys], rfl⟩
  | call _ hc ih => exact ih.apply hc
  | finish _ k t ih => exact ih.finish k t
  | preview _ ih => exact ih.previewed

end Statement

/-- The text of a piece can be woven into any other, where it is known before it is written. -/
def Piece.Woven : Piece → Prop
  | .text t | .name t => Text.Woven t.toList
  | .fragment .. => False
  | .bound _ | .halt _ => True

theorem Statement.Structured.woven_piece {s : Statement} (h : s.Structured) {p : Piece}
    (origin : s.Origin p) : p.Woven := by
  cases origin with
  | word word => exact word.woven
  | @name name place hname =>
      have accepted (ha : Identifier.Accepted name) : Woven name.toList := woven_name ha.chars
      cases place with
      | table | side | field | grouping | ordering =>
          exact accepted (h.vetted.names_accepted rfl name hname)
      | value => exact accepted (h.values name hname)
      | expression => exact h.columns name hname
      | shortName =>
          obtain ⟨reference, -, hname⟩ := List.mem_filterMap.mp hname
          obtain ⟨t, read, short⟩ := Option.bind_eq_some_iff.mp hname
          exact woven_name ((TableReference.split_chars (toOption_some.mp read)).2 name short)
  | expression hcolumn => exact h.columns _ hcolumn
  | condition hraw | fragment hraw => exact (h.vetted.rawTexts_admitted _ hraw).elim
  | bound | halt => trivial

namespace Compiler

variable {k : Compiler} {reserved : List String} {s : Statement} {compiled : Compiled}
  {ps : List Piece} {sql : String}

theorem writePiece_woven (unquoted : k.quotes = false) {c c' : Collector} {p : Piece}
    (woven : p.Woven) (h : k.writePiece reserved c p = .ok (sql, c')) : Woven sql.toList := by
  cases p with
  | text t =>
      cases h
      exact woven
  | name t =>
      have plain : k.writeName t = t := by
        rw [writeName, unquoted]
        rfl
      rw [writePiece_name, plain] at h
      cases h
      exact woven
  | bound v =>
      have written := Except.ok.inj ((writePiece_bound v).symm.trans h)
      have placeholder := Collector.woven_bind k.style reserved c v
      rwa [written] at placeholder
  | fragment clause text params => exact woven.elim
  | halt e => cases h

theorem writeFrom_woven (unquoted : k.quotes = false) {c c' : Collector}
    (woven : ∀ p ∈ ps, p.Woven) (h : k.writeFrom reserved c ps = .ok (sql, c')) :
    Woven sql.toList := by
  induction ps generalizing c sql with
  | nil =>
      obtain ⟨rfl, -⟩ := writeFrom_nil_ok.mp h
      decide
  | cons p ps ih =>
      obtain ⟨first, rest⟩ := List.forall_mem_cons.mp woven
      obtain ⟨head, tail, c₁, hp, hps, rfl⟩ := writeFrom_cons_ok.mp h
      rw [String.toList_append]
      exact (writePiece_woven unquoted first hp).append (ih rest hps)

theorem write_woven (unquoted : k.quotes = false) {parameters : Value}
    (woven : ∀ p ∈ ps, p.Woven) (h : k.write reserved ps = .ok (sql, parameters)) :
    Woven sql.toList := by
  obtain ⟨last, h, -⟩ := write_ok.mp h
  exact writeFrom_woven unquoted woven h

theorem compile_woven (unquoted : k.quotes = false) (structured : s.Structured)
    (h : k.compile s = .ok compiled) : Woven compiled.sql.toList := by
  have given : s.isRaw = false := by
    rw [Statement.isRaw, structured.text]
    rfl
  obtain ⟨operation, ps, -, pieces, written⟩ := compile_pieces_ok given h
  exact write_woven unquoted
    (fun p hp => structured.woven_piece (Statement.origins_piecesFor pieces p hp)) written

theorem countPieces_woven (structured : s.Structured) : ∀ p ∈ k.countPieces s, p.Woven := by
  have select {s : Statement} (structured : s.Structured) :
      ∀ p ∈ s.selectPieces k.dialect, p.Woven :=
    fun p hp => structured.woven_piece (s.origins_select k.dialect p hp)
  have unordered : { s with ordering := [] }.Structured :=
    { structured with vetted := { structured.vetted with ordering := List.forall_mem_nil _ } }
  rw [countPieces]
  split
  · have inner : (if s.isPaginated then s else { s with ordering := [] }).Structured := by
      split
      · exact structured
      · exact unordered
    have opening : (Piece.text ("SELECT COUNT(*) AS " ++ countColumn ++ " FROM (")).Woven := by
      change Woven _
      decide
    have closing : (Piece.text (") AS " ++ countColumn ++ "_table")).Woven := by
      change Woven _
      decide
    exact List.forall_mem_append.mpr ⟨List.forall_mem_cons.mpr ⟨opening, select inner⟩,
      List.forall_mem_singleton.mpr closing⟩
  · have counted :
        { s with columns := ["COUNT(*) AS " ++ countColumn], ordering := [] }.Structured :=
      { unordered with
        vetted := { unordered.vetted with }
        columns := List.forall_mem_singleton.mpr (by decide) }
    exact select counted

theorem compileCount_woven (unquoted : k.quotes = false) (structured : s.Structured)
    (h : k.compileCount s = .ok compiled) : Woven compiled.sql.toList := by
  have written := compileCount_ok h
  rw [Statement.pieces_countParts] at written
  exact write_woven unquoted (countPieces_woven structured) written

end Compiler

namespace Builder

variable {k : Compiler} {b : Builder}

/-- What a terminal call orders is woven from the statement as it left it. -/
theorem order_woven (unquoted : k.quotes = false) (structured : b.statement.Structured)
    {b' : Builder} {t : Terminal} {o : Order} (h : b.finish k t = (b', .ok o)) :
    Woven o.compiled.sql.toList := by
  obtain ⟨s', finished⟩ := finish_ok h
  have given : b.statement.isRaw = false := by
    rw [Statement.isRaw, structured.text]
    rfl
  have left : s'.Structured := by
    have after := structured.finish k t
    rwa [finished] at after
  obtain ⟨-, -, compiled⟩ := Terminal.finish_ok given finished
  split at compiled
  · exact Compiler.compileCount_woven unquoted left compiled
  · exact Compiler.compile_woven unquoted left compiled

theorem preview_woven (unquoted : k.quotes = false) (structured : b.statement.Structured)
    {c : Compiled} {records : List Log.Record} (h : b.preview k = .ok (c, records)) :
    Woven c.sql.toList := by
  simp only [preview] at h
  split at h
  · cases h
  · obtain ⟨compiled, hcompiled, h⟩ := ok_bind_iff.mp h
    cases h
    exact Compiler.compile_woven unquoted structured.previewed hcompiled

end Builder

def Event.text? : Event → Option String
  | .exec sql _ => some sql
  | _ => none

def Result.text? : Result → Option String
  | .text sql => some sql
  | .compiled c => some c.sql
  | _ => none

/-- The texts of a step: those that were executed, and the one that was asked for. -/
def Report.texts (r : Report) : List String :=
  r.events.filterMap Event.text? ++ (r.outcome.toOption.bind Result.text?).toList

namespace Session

variable (s : Session) (name : String)

theorem carryOut_gives_no_text (o : Order) :
    (s.carryOut o).2.outcome.toOption.bind Result.text? = none := by
  simp only [carryOut]
  split
  · rfl
  · next x _ =>
      simp only
      cases (x.run o.request o.compiled s.replies).outcome with
      | error e => rfl
      | ok answer =>
          cases answer with
          | frame f => rfl
          | value v =>
              cases v with
              | list rows => cases hcounts : o.countsRows <;> simp [Except.map, Except.toOption,
                  Result.ofAnswer, Result.text?]
              | _ => rfl

/-- A use of a builder shows the text of an order or of a preview, and no other. -/
theorem text_of_use {a : Action} (use : a.isUse = true) {sql : String}
    (h : sql ∈ (s.step name a).2.texts) :
    (∃ t b o, (s.builderOrNew name).finish s.compiler t = (b, .ok o) ∧ sql = o.compiled.sql) ∨
      ∃ c records, (s.builderOrNew name).preview s.compiler = .ok (c, records) ∧ sql = c.sql := by
  obtain executed | given := List.mem_append.mp h
  · obtain ⟨event, hevent, text⟩ := List.mem_filterMap.mp executed
    cases a with
    | finish t =>
        cases event with
        | exec sql' parameters =>
            cases text
            obtain ⟨b, o, finished, same, -⟩ := s.finish_handed name hevent
            exact .inl ⟨t, b, o, finished, same⟩
        | _ => cases text
    | chain | compile | toSql =>
        rw [s.step_events_of_local name rfl] at hevent
        cases hevent
    | _ => cases use
  · rw [Option.mem_toList] at given
    cases a with
    | chain c =>
        simp only [step] at given
        split at given <;> cases given
    | finish t =>
        simp only [step] at given
        split at given
        · cases given
        · rw [carryOut_gives_no_text] at given
          cases given
    | compile | toSql =>
        simp only [step] at given
        split at given
        · cases given
        · next c records previewed =>
            cases given
            exact .inr ⟨c, records, previewed, rfl⟩
    | _ => cases use

/-- Where all calls on the builder of a name are structured, every text that its uses show is
harmless, whatever is done under other names. -/
theorem structured_calls_stay_harmless (s : Session) (name : String)
    (new : s.builderOrNew name = {}) (unquoted : s.compiler.quotes = false)
    (steps : List (String × Action))
    (structured : ∀ step ∈ steps, step.1 = name → ∀ c ∈ step.2.calls, c.isStructured = true) :
    ∀ entry ∈ s.trace steps, entry.1.1 = name → entry.1.2.isUse = true →
      ∀ sql ∈ entry.2.texts, Text.Harmless sql := by
  intro ⟨⟨m, a⟩, report⟩ hentry own use sql hsql
  obtain rfl : m = name := own
  -- the text is shown by one step, and the calls before it built what it is made of
  obtain ⟨before, after, rfl, made⟩ := s.mem_trace hentry
  have shown : sql ∈ ((s.run before).1.step m a).2.texts := made ▸ hsql
  have earlier : ∀ step ∈ before, step.1 = m → ∀ c ∈ step.2.calls, c.isStructured = true :=
    fun step hstep => structured step (List.mem_append_left _ hstep)
  have built := (s.built_run m new before earlier).structured
  have plain : (s.run before).1.compiler.quotes = false := by
    rw [(s.run_keeps before).1]
    exact unquoted
  obtain ⟨t, b, o, finished, rfl⟩ | ⟨c, records, previewed, rfl⟩ :=
    (s.run before).1.text_of_use m use shown
  · exact (Builder.order_woven plain built finished).harmless
  · exact (Builder.preview_woven plain built previewed).harmless

/-- A session on an engine whose placeholders are names. -/
def namingSession : Session where
  compiler := { style := .named, dialect := "tsql" }
  provider := some { handle := .engine }

/-- Texts that would end a statement, as values, as names and inside a callback. -/
def hostileSteps : List (String × Action) :=
  [("q", .chain (.table (.text "users AS u"))),
    ("q", .chain (.select [.text "u.id, *"])),
    ("q", .chain (.table (.text "users; DROP TABLE users"))),
    ("q", .chain (.join .left (.text "posts p") (.text "u.id") (.text "=") (.text "p.user_id"))),
    ("q", .chain (.join .inner (.text "posts") (.text "1=1 --") (.text "=") (.text "id"))),
    ("q", .chain (.condition "where"
      [.callback [("where", [.text "name", .text "\x27; DROP TABLE users --"])]])),
    ("q", .chain (.orderBy (.text "id") (.text "ASC; --"))),
    ("q", .chain (.limit (.int 5))),
    ("q", .toSql),
    ("q", .finish .count)]

theorem structured_calls_stay_harmless_of_hostile :
    (namingSession.trace hostileSteps).flatMap (·.2.texts) =
        ["SELECT u.id, * FROM users AS u LEFT JOIN posts AS p ON u.id = p.user_id " ++
          "WHERE name = :p1 ORDER BY (SELECT NULL) OFFSET 0 ROWS FETCH NEXT 5 ROWS ONLY",
        "SELECT COUNT(*) AS aggregate FROM (SELECT u.id, * FROM users AS u LEFT JOIN posts AS p " ++
          "ON u.id = p.user_id WHERE name = :p1 ORDER BY (SELECT NULL) OFFSET 0 ROWS " ++
          "FETCH NEXT 5 ROWS ONLY) AS aggregate_table"] ∧
      ∀ entry ∈ namingSession.trace hostileSteps, entry.1.2.isUse = true →
        ∀ sql ∈ entry.2.texts, Text.Harmless sql := by
  have structured : ∀ step ∈ hostileSteps, step.1 = "q" →
      ∀ c ∈ step.2.calls, c.isStructured = true := by decide +kernel
  have own : ∀ entry ∈ namingSession.trace hostileSteps, entry.1.1 = "q" := by
    intro entry hentry
    obtain ⟨before, after, made, -⟩ := namingSession.mem_trace hentry
    have each : ∀ step ∈ hostileSteps, step.1 = "q" := by decide
    exact each entry.1 (made ▸ by simp)
  refine ⟨by decide +kernel, fun entry hentry use => ?_⟩
  exact structured_calls_stay_harmless namingSession "q" rfl rfl hostileSteps structured entry
    hentry (own entry hentry) use

/-- A join of four arguments, of which the operator and the second column are absent: the other two
are a table and a condition that is written as it is. -/
theorem absent_operator_makes_raw_join :
    let join := Action.ofCall "join"
      [.text "u", .text "a = b; DROP TABLE t --", .none, .none]
    let steps := [("q", .chain (.table (.text "t"))), ("q", join), ("q", .toSql)]
    let shown := "SELECT * FROM t INNER JOIN u ON a = b; DROP TABLE t --"
    (namingSession.trace steps).flatMap (·.2.texts) = [shown] ∧ ¬ Text.Harmless shown := by
  intro join steps shown
  refine ⟨by decide +kernel, fun harmless => ?_⟩
  have separator : Text.isHostile ';' = false := harmless.quiet ';' (by decide +kernel)
  cases separator

end Session
end FluentSql
