import FluentSql.Proofs.SessionSteps
import FluentSql.Proofs.TerminalCalls
import FluentSql.Proofs.Writing

/-!
Previews beside the calls that read rows. Whatever calls failed on it, an open builder was claimed
for nothing but reading, so a reading call fills in the operation that a preview fills in on its
copy, and both compile one statement. Only the call for one row compiles another one, which has a
limit added.
-/

namespace FluentSql

/-- The terminal calls that read rows without counting them. -/
def Terminal.reads : Terminal → Bool
  | .get _ | .one _ | .dataframe => true
  | _ => false

/-- An open builder is claimed for reading or not at all. -/
def Builder.OpenReads (b : Builder) : Prop :=
  b.consumed = false → b.statement.operation = none ∨ b.statement.operation = some .select

/-- A report of a call that executed a compiled statement with its parameters as they are bound,
once, and nothing else. -/
def Report.Runs (r : Report) (c : Compiled) : Prop :=
  ∃ parameters, Compiled.bindParameters c.parameters = .ok parameters ∧
    Event.execs r.events = [.exec c.sql parameters]

/-- A report of a call that failed before it asked the database for anything. -/
def Report.Fails (r : Report) (e : Error) : Prop := r.outcome = .error e ∧ r.events = []

namespace Builder

theorem openReads_chain {b : Builder} (h : b.OpenReads) (c : Call) : (b.chain c).1.OpenReads := by
  cases used : b.consumed with
  | true =>
      rw [chain_consumed used]
      exact h
  | false =>
      rw [chain_open used]
      intro _
      have free := h used
      obtain accepted | refused := c.apply_cases b.statement
      · generalize (c.apply b.statement).1 = s at accepted
        cases accepted with
        | select => exact .inr rfl
        | _ => exact free
      · rw [refused]
        cases c with
        | select columns =>
            obtain none | same := free
            · rw [Call.residue, none]
              exact .inr rfl
            · rw [Call.residue, same]
              exact .inr rfl
        | rawSql sql params =>
            rw [Call.residue]
            split
            · exact free
            · exact free
        | _ => exact free

theorem openReads_after {b : Builder} (h : b.OpenReads) (k : Compiler) (accepted : Bool)
    (a : Action) : (b.after k accepted a).OpenReads := by
  have new : OpenReads {} := fun _ => .inl rfl
  cases a with
  | chain c => exact openReads_chain h c
  | finish t =>
      intro opened
      cases used : b.consumed with
      | true => rw [after, finish_consumed used, used] at opened; cases opened
      | false => rw [after, finish_open used] at opened; cases opened
  | fresh =>
      rw [after]
      split
      · exact new
      · exact h
  | startTable | startRaw =>
      rw [after]
      split
      · exact openReads_chain new _
      · exact h
  | _ => exact h

theorem previewed_raw {s : Statement} (raw : s.isRaw = true) : previewed s = s := by
  rw [previewed, raw]
  rfl

theorem previewed_keeps (s : Statement) :
    (previewed s).isRaw = s.isRaw ∧ (previewed s).limit = s.limit := by
  rw [previewed]
  split
  · exact ⟨rfl, rfl⟩
  · exact ⟨rfl, rfl⟩

theorem previewed_free {s : Statement} (given : s.isRaw = false)
    (free : s.operation = none ∨ s.operation = some .select) :
    previewed s = { s with operation := some .select } := by
  rw [previewed, given]
  obtain none | same := free
  · rw [none]
    rfl
  · have kept : { s with operation := some .select } = s := by rw [← same]
    rw [kept, same]
    rfl

end Builder

namespace Terminal

variable {s : Statement} {t : Terminal}

theorem prepare_reading (reads : t.reads = true)
    (free : s.operation = none ∨ s.operation = some .select) :
    t.prepare s = (Builder.previewed s, none) := by
  cases raw : s.isRaw with
  | true =>
      rw [Builder.previewed_raw raw]
      cases t with
      | get | one | dataframe => simp only [prepare, raw, if_true]
      | _ => cases reads
  | false =>
      have claimed : claimOnly s .select = ({ s with operation := some .select }, none) :=
        Call.orKeep_accepted.mpr (Statement.claim_ok.mpr ⟨free, rfl⟩)
      rw [Builder.previewed_free raw free, ← claimed]
      cases t with
      | get | one | dataframe => simp only [prepare, raw, Bool.false_eq_true, if_false]
      | _ => cases reads

theorem request_get {given : Value} {style : FetchStyle} (h : checkStyle given = .ok style)
    (isRaw : Bool) : (Terminal.get given).request isRaw = .ok (.all (.text style.text)) := by
  simp only [request, h]
  rfl

theorem request_one {given : Value} {style : FetchStyle} (h : checkStyle given = .ok style)
    (single : style ≠ .group) (isRaw : Bool) :
    (Terminal.one given).request isRaw = .ok (.first (.text style.text)) := by
  simp only [request, h]
  exact if_neg single

theorem limited_bounded (bounded : s.isRaw = true ∨ s.limit.isSome = true) (given : Value) :
    (Terminal.one given).limited s = s :=
  if_pos (Bool.or_eq_true_iff.mpr bounded)

theorem limited_free (structured : s.isRaw = false) (unlimited : s.limit = none) (given : Value) :
    (Terminal.one given).limited { s with operation := some .select } =
      { s with operation := some .select, limit := some 1 } := by
  refine if_neg fun bounded => ?_
  obtain raw | limit := Bool.or_eq_true_iff.mp bounded
  · exact absurd (structured.symm.trans raw) (by decide)
  · rw [unlimited] at limit
    cases limit

theorem compile_reading (reads : t.reads = true) (k : Compiler) (s : Statement) :
    ∃ records : Compiled → List Log.Record,
      t.compile k s = (k.compile s).map fun c => (c, records c) := by
  have uncounted : t.isCount = false := by
    cases t with
    | get | one | dataframe => rfl
    | _ => cases reads
  cases raw : s.isRaw with
  | true =>
      refine ⟨fun _ => [], ?_⟩
      simp only [compile, raw, if_true]
      cases k.compile s <;> rfl
  | false =>
      refine ⟨fun c => [c.record], ?_⟩
      simp only [compile, raw, uncounted, Bool.false_eq_true, if_false]
      cases k.compile s <;> rfl

theorem finish_reading (reads : t.reads = true)
    (free : s.operation = none ∨ s.operation = some .select) {q : Request}
    (request : t.request s.isRaw = .ok q) (k : Compiler) :
    ∃ records : Compiled → List Log.Record,
      (t.finish k s).2 = (k.compile (t.limited (Builder.previewed s))).map fun c =>
        ⟨q, c, false, records c⟩ := by
  have raw := (Builder.previewed_keeps s).1
  have uncounted (s : Statement) : t.countsRows s = false := by
    cases t with
    | get | one | dataframe => rfl
    | _ => cases reads
  obtain ⟨records, compiled⟩ := compile_reading reads k (t.limited (Builder.previewed s))
  refine ⟨records, ?_⟩
  rw [finish, prepare_reading reads free]
  simp only [raw, request, uncounted, compiled]
  cases k.compile (t.limited (Builder.previewed s)) <;> rfl

end Terminal

namespace Piece

/-- A piece that is written as it stands. -/
def isFixed : Piece → Bool
  | .text _ | .name _ => true
  | _ => false

end Piece

namespace Statement

theorem numberPieces_isFixed {n : Nat} (keyword : String) :
    (numberPieces keyword n).all Piece.isFixed = true ↔ Text.writable n = true := by
  rw [numberPieces]
  split
  · next short => exact iff_of_true rfl short
  · next long => exact iff_of_false Bool.false_ne_true long

/-- Limit and offset can be written when they have no more digits than a text may have. -/
theorem pagingPieces_isFixed {limit offset : Option Nat}
    (short : ∀ n ∈ limit, Text.writable n = true) (near : ∀ n ∈ offset, Text.writable n = true)
    (paging : Dialect.Paging) (ordered : Bool) :
    (pagingPieces paging ordered limit offset).all Piece.isFixed = true := by
  refine pagingPieces_induction (P := fun ps => ps.all Piece.isFixed = true) rfl (fun h h' => ?_)
    (fun keyword _ n given => ?_) (fun _ _ => rfl) (fun _ _ => rfl) ordered
  · rw [List.all_append, h, h']
    rfl
  · apply (numberPieces_isFixed keyword).mpr
    obtain inLimit | inOffset | rfl := given
    · exact short n inLimit
    · exact near n inOffset
    · decide +kernel

/-- A limit of one row can be written wherever the pagination without it can. -/
theorem pagingPieces_one {paging : Dialect.Paging} {ordered : Bool} {offset : Option Nat}
    (h : (pagingPieces paging ordered none offset).all Piece.isFixed = true) :
    (pagingPieces paging ordered (some 1) offset).all Piece.isFixed = true := by
  have one : ∀ n ∈ some 1, Text.writable n = true := by
    rintro n ⟨⟩
    decide +kernel
  refine pagingPieces_isFixed one (fun n given => ?_) paging ordered
  cases given
  -- an offset stands in the pagination without a limit, so it can be written
  have within : numberPieces " OFFSET " n ⊆ pagingPieces paging ordered none (some n) := by
    intro p hp
    cases paging with
    | fetch => exact List.mem_append_left _ (List.mem_append_right _ hp)
    | limit unbounded => exact List.mem_append_right _ hp
  apply (numberPieces_isFixed " OFFSET ").mp
  exact List.all_eq_true.mpr fun p hp => List.all_eq_true.mp h p (within hp)

end Statement

namespace Compiler

variable {k : Compiler} {reserved : List String} {c c' : Collector} {sql : String}
  {ps : List Piece}

theorem writeFrom_fixed (fixed : ps.all Piece.isFixed = true) :
    ∃ sql, k.writeFrom reserved c ps = .ok (sql, c) := by
  induction ps with
  | nil => exact ⟨"", rfl⟩
  | cons p ps ih =>
      obtain ⟨first, rest⟩ := Bool.and_eq_true_iff.mp fixed
      obtain ⟨tail, htail⟩ := ih rest
      cases p with
      | text s => exact ⟨_, writeFrom_cons_ok.mpr ⟨_, _, _, writePiece_text s, htail, rfl⟩⟩
      | name s => exact ⟨_, writeFrom_cons_ok.mpr ⟨_, _, _, writePiece_name s, htail, rfl⟩⟩
      | _ => cases first

theorem fixed_of_written (plain : ps.all Piece.isPlain = true)
    (h : k.writeFrom reserved c ps = .ok (sql, c')) : ps.all Piece.isFixed = true := by
  induction ps generalizing c sql with
  | nil => rfl
  | cons p ps ih =>
      obtain ⟨first, rest⟩ := Bool.and_eq_true_iff.mp plain
      obtain ⟨head, tail, c₁, hp, hps, -⟩ := writeFrom_cons_ok.mp h
      have fixed : p.isFixed = true := by
        cases p with
        | text | name => rfl
        | halt e => cases hp
        | _ => cases first
      exact Bool.and_eq_true_iff.mpr ⟨fixed, ih rest hps⟩

/-- What compiles as a SELECT without a limit also compiles with a limit of one row. -/
theorem compile_limited {s : Statement} (given : s.isRaw = false) (unlimited : s.limit = none)
    {whole : Compiled} (h : k.compile { s with operation := some .select } = .ok whole) :
    ∃ one, k.compile { s with operation := some .select, limit := some 1 } = .ok one := by
  obtain ⟨htable, hwrite, -⟩ := (compile_select_ok given).mp h
  obtain ⟨last, hlast, -⟩ := write_ok.mp hwrite
  obtain ⟨core, paging, c₁, hcore, hpaging, -⟩ := writeFrom_append_ok.mp hlast
  rw [unlimited] at hpaging
  have fixed := fixed_of_written (Statement.pagingPieces_isPlain _ _ _ _) hpaging
  obtain ⟨limits, hlimits⟩ : ∃ limits, k.writeFrom s.reservedNames c₁
      (Statement.pagingPieces (Dialect.paging k.dialect) (!s.ordering.isEmpty) (some 1) s.offset) =
        .ok (limits, c₁) := writeFrom_fixed (Statement.pagingPieces_one fixed)
  refine ⟨⟨core ++ limits, c₁.parameters k.style, some Operation.select.text, s.table⟩, ?_⟩
  exact (compile_select_ok (s := { s with limit := some 1 }) given).mpr
    ⟨htable, write_ok.mpr ⟨c₁, writeFrom_append_ok.mpr ⟨_, _, _, hcore, hlimits, rfl⟩, rfl⟩,
      rfl, rfl⟩

end Compiler

theorem Compiled.count_of_container {parameters : Value}
    (container : (∃ items, parameters = .list items) ∨ ∃ entries, parameters = .map entries) :
    ∃ n, Compiled.count parameters = .ok n := by
  obtain ⟨items, rfl⟩ | ⟨entries, rfl⟩ := container
  · simp only [count]
    split
    · exact ⟨0, rfl⟩
    · exact ⟨items.length, rfl⟩
  · simp only [count]
    split
    · exact ⟨0, rfl⟩
    · exact ⟨entries.length, rfl⟩

theorem Compiler.compile_countable {k : Compiler} {s : Statement} {c : Compiled}
    (h : k.compile s = .ok c) : ∃ n, c.paramCount = .ok n := by
  cases given : s.isRaw with
  | true =>
      obtain ⟨text, raw⟩ := Option.isSome_iff_exists.mp given
      simp only [compile, raw] at h
      cases h
      simp only [Compiled.paramCount, compileRaw]
      cases s.rawParams with
      | none => exact ⟨0, rfl⟩
      | some params =>
          apply Compiled.count_of_container
          cases params with
          | list items => exact .inl ⟨items, rfl⟩
          | map entries => exact .inr ⟨entries, rfl⟩
  | false =>
      obtain ⟨_, _, -, -, hwrite⟩ := compile_pieces_ok given h
      obtain ⟨last, -, parameters⟩ := write_ok.mp hwrite
      rw [Compiled.paramCount, parameters, Collector.parameters]
      apply Compiled.count_of_container
      split
      · exact .inr ⟨_, rfl⟩
      · exact .inl ⟨_, rfl⟩

theorem Terminal.checkFirst_of_request {t : Terminal} (reads : t.reads = true) {isRaw : Bool}
    {q : Request} (h : t.request isRaw = .ok q) : q.checkFirst = .ok () := by
  cases t with
  | one given =>
      obtain ⟨style, -, h⟩ := ok_bind_iff.mp h
      cases style <;> cases h <;> rfl
  | get given =>
      obtain ⟨style, -, h⟩ := ok_bind_iff.mp h
      cases h
      rfl
  | dataframe => cases h; rfl
  | _ => cases reads

namespace Session

variable {s : Session} {name : String} {t : Terminal} {q : Request}

theorem step_compile_keeps (s : Session) (name : String) :
    (s.step name .compile).1.builderOrNew name = s.builderOrNew name :=
  s.builderOrNew_store_self name name

/-- A preview of an open builder gives what its statement compiles to as a SELECT. -/
theorem step_compile_outcome (opened : (s.builderOrNew name).consumed = false) :
    (s.step name .compile).2.outcome =
      (s.compiler.compile (Builder.previewed (s.builderOrNew name).statement)).map .compiled := by
  simp only [step, Builder.preview, opened, Bool.false_eq_true, if_false]
  cases s.compiler.compile (Builder.previewed (s.builderOrNew name).statement) <;> rfl

theorem step_compile_ok (opened : (s.builderOrNew name).consumed = false) {c : Compiled} :
    (s.step name .compile).2.outcome = .ok (.compiled c) ↔
      s.compiler.compile (Builder.previewed (s.builderOrNew name).statement) = .ok c := by
  rw [step_compile_outcome opened]
  cases s.compiler.compile (Builder.previewed (s.builderOrNew name).statement) with
  | error e => exact iff_of_false nofun nofun
  | ok whole => exact ⟨fun h => by cases h; rfl, fun h => by cases h; rfl⟩

theorem step_compile_error (opened : (s.builderOrNew name).consumed = false) {e : Error} :
    (s.step name .compile).2.outcome = .error e ↔
      s.compiler.compile (Builder.previewed (s.builderOrNew name).statement) = .error e := by
  rw [step_compile_outcome opened]
  cases s.compiler.compile (Builder.previewed (s.builderOrNew name).statement) with
  | error e' => exact ⟨fun h => by cases h; rfl, fun h => by cases h; rfl⟩
  | ok whole => exact iff_of_false nofun nofun

/-- A reading call on an open builder carries out the order of what its statement compiles to, or
ends with the error of the compilation. -/
theorem step_reading (opened : (s.builderOrNew name).consumed = false)
    (claims : (s.builderOrNew name).OpenReads) (reads : t.reads = true)
    (request : t.request (s.builderOrNew name).statement.isRaw = .ok q) :
    ∃ (b : Builder) (records : Compiled → List Log.Record), s.step name (.finish t) =
      match s.compiler.compile (t.limited (Builder.previewed (s.builderOrNew name).statement)) with
      | .error e => (s.store name b, .refused e)
      | .ok c => (s.store name b).carryOut ⟨q, c, false, records c⟩ := by
  obtain ⟨records, ordered⟩ := Terminal.finish_reading reads (claims opened) request s.compiler
  refine ⟨⟨(t.finish s.compiler (s.builderOrNew name).statement).1, true⟩, records, ?_⟩
  simp only [step, Builder.finish_open opened]
  rw [ordered]
  cases s.compiler.compile (t.limited (Builder.previewed (s.builderOrNew name).statement)) <;> rfl

theorem step_reading_fails (opened : (s.builderOrNew name).consumed = false)
    (claims : (s.builderOrNew name).OpenReads) (reads : t.reads = true)
    (request : t.request (s.builderOrNew name).statement.isRaw = .ok q) {e : Error}
    (h : s.compiler.compile (t.limited (Builder.previewed (s.builderOrNew name).statement)) =
      .error e) : (s.step name (.finish t)).2.Fails e := by
  obtain ⟨b, records, stepped⟩ := step_reading opened claims reads request
  rw [stepped, h]
  exact ⟨rfl, rfl⟩

theorem step_reading_runs {p : Provider} (provider : s.provider = some p)
    (quiet : (Reply.next s.replies).1.fault = none)
    (opened : (s.builderOrNew name).consumed = false)
    (claims : (s.builderOrNew name).OpenReads) (reads : t.reads = true)
    (request : t.request (s.builderOrNew name).statement.isRaw = .ok q) {c : Compiled}
    (h : s.compiler.compile (t.limited (Builder.previewed (s.builderOrNew name).statement)) =
      .ok c) : (s.step name (.finish t)).2.Runs c := by
  obtain ⟨b, records, stepped⟩ := step_reading opened claims reads request
  obtain ⟨count, counted⟩ := Compiler.compile_countable h
  obtain ⟨parameters, bound⟩ := Compiled.bindParameters_ok counted
  have first := Terminal.checkFirst_of_request reads request
  have executor : (s.store name b).executor? = some ⟨p.handle, .text s.compiler.dialect⟩ := by
    simp only [executor?, store, provider]
    rfl
  refine ⟨parameters, bound, ?_⟩
  rw [stepped, h]
  simp only [carryOut, executor]
  exact (Executor.perform_execs_eq _ q c first counted bound _).trans
    (if_pos (Reply.reaches_of_quiet quiet p.handle))

/-- Whether steps led to a session from one in which the builder of a name was new. -/
def IsReached (name : String) (now : Session) : Prop :=
  ∃ (s : Session) (steps : List (String × Action)),
    s.builderOrNew name = {} ∧ now = (s.run steps).1

/-- Whether the steps between two sessions do nothing but look at the builder of a name. -/
def OnlyLooked (name : String) (now later : Session) : Prop :=
  ∃ steps : List (String × Action), later = (now.run steps).1 ∧
    ∀ step ∈ steps, step.1 = name → step.2.isLook = true

variable {now later : Session}

theorem IsReached.openReads (reached : IsReached name now) : (now.builderOrNew name).OpenReads := by
  obtain ⟨s, steps, new, rfl⟩ := reached
  refine s.builder_run name Builder.OpenReads (fun _ => True) (fun b k accepted a h _ => ?_) ?_
    steps fun _ _ _ => trivial
  · exact Builder.openReads_after h k accepted a
  · rw [new]
    exact fun _ => .inl rfl

theorem OnlyLooked.builder (looked : OnlyLooked name now later) :
    later.builderOrNew name = now.builderOrNew name := by
  obtain ⟨steps, rfl, looks⟩ := looked
  refine now.builder_run name (· = now.builderOrNew name) (·.isLook = true)
    (fun b k accepted a same look => ?_) rfl steps looks
  rw [Builder.after_look b k accepted look, same]

theorem OnlyLooked.keeps (looked : OnlyLooked name now later) :
    later.compiler = now.compiler ∧ later.provider = now.provider := by
  obtain ⟨steps, rfl, -⟩ := looked
  exact now.run_keeps steps

/-- A preview leaves an open builder as it is. When it gives a compiled statement, and the database
raises nothing, the next reading call executes that statement with its parameters as they are bound;
the call for one row executes it with a limit of one row where it is neither raw nor limited. When
the preview fails, the next reading call of all rows fails with the same error before the database
is asked. Other steps may lie between, as long as they only look at the builder. -/
theorem preview_is_what_runs (reached : IsReached name now) {p : Provider}
    (provider : now.provider = some p) (opened : (now.builderOrNew name).consumed = false)
    (looked : OnlyLooked name (now.step name .compile).1 later) :
    (now.step name .compile).1.builderOrNew name = now.builderOrNew name ∧
      (∀ c, (now.step name .compile).2.outcome = .ok (.compiled c) →
        (Reply.next later.replies).1.fault = none →
        (later.step name (.finish .dataframe)).2.Runs c ∧
        ∀ given style, Terminal.checkStyle given = .ok style →
          (later.step name (.finish (.get given))).2.Runs c ∧
          (style ≠ .group →
            ((now.builderOrNew name).statement.isRaw = true ∨
                (now.builderOrNew name).statement.limit.isSome = true →
              (later.step name (.finish (.one given))).2.Runs c) ∧
            ((now.builderOrNew name).statement.isRaw = false →
                (now.builderOrNew name).statement.limit = none →
              ∃ one, now.compiler.compile { (now.builderOrNew name).statement with
                  operation := some .select, limit := some 1 } = .ok one ∧
                (later.step name (.finish (.one given))).2.Runs one))) ∧
      (∀ e, (now.step name .compile).2.outcome = .error e →
        (later.step name (.finish .dataframe)).2.Fails e ∧
        ∀ given style, Terminal.checkStyle given = .ok style →
          (later.step name (.finish (.get given))).2.Fails e) := by
  have claims := reached.openReads
  have kept := step_compile_keeps now name
  have same := looked.builder.trans kept
  obtain ⟨compiler, sameProvider⟩ := looked.keeps
  rw [(now.step_keeps name .compile).1] at compiler
  rw [(now.step_keeps name .compile).2, provider] at sameProvider
  refine ⟨kept, fun c hc quiet => ?_, fun e he => ?_⟩
  · have compiled := (step_compile_ok opened).mp hc
    -- the later session has the builder and the compiler of the earlier one
    rw [← same] at opened claims compiled ⊢
    rw [← compiler] at compiled ⊢
    have runs {t : Terminal} {q : Request} :=
      step_reading_runs (t := t) (q := q) sameProvider quiet opened claims
    refine ⟨runs rfl rfl compiled, fun given style hstyle => ⟨?_, fun single => ⟨?_, ?_⟩⟩⟩
    · exact runs rfl (Terminal.request_get hstyle _) compiled
    · intro bounded
      obtain ⟨raw, limit⟩ := Builder.previewed_keeps (later.builderOrNew name).statement
      rw [← raw, ← limit] at bounded
      refine runs rfl (Terminal.request_one hstyle single _) ?_
      rw [Terminal.limited_bounded bounded]
      exact compiled
    · intro structured unlimited
      have selects := Builder.previewed_free structured (claims opened)
      rw [selects] at compiled
      obtain ⟨one, hone⟩ := Compiler.compile_limited structured unlimited compiled
      refine ⟨one, hone, runs rfl (Terminal.request_one hstyle single _) ?_⟩
      rw [selects, Terminal.limited_free structured unlimited]
      exact hone
  · have compiled := (step_compile_error opened).mp he
    rw [← same] at opened claims compiled
    rw [← compiler] at compiled
    refine ⟨step_reading_fails opened claims rfl rfl compiled, fun given style hstyle => ?_⟩
    exact step_reading_fails opened claims rfl (Terminal.request_get hstyle _) compiled

/-- A session in which a projection was refused, which leaves its statement claimed for reading. -/
def claimedSession : Session :=
  let new : Session := { compiler := { style := .named }, provider := some ⟨.engine, true⟩ }
  (new.run [("q", .chain (.table (.text "users"))), ("q", .chain (.select [.text ""])),
    ("q", .chain (.condition "where" [.text "age", .text ">", .int 18]))]).1

theorem preview_is_what_runs_of_claimed :
    ∃ later c one, IsReached "q" claimedSession ∧
      claimedSession.provider = some ⟨.engine, true⟩ ∧
      (claimedSession.builderOrNew "q").consumed = false ∧
      (claimedSession.builderOrNew "q").statement.operation = some .select ∧
      OnlyLooked "q" (claimedSession.step "q" .compile).1 later ∧
      (claimedSession.step "q" .compile).2.outcome = .ok (.compiled c) ∧
      c.sql = "SELECT * FROM users WHERE age > :p1" ∧
      (later.step "q" (.finish (.get (.text "GROUP")))).2.Runs c ∧
      one.sql = "SELECT * FROM users WHERE age > :p1 LIMIT 1" ∧
      (later.step "q" (.finish (.one (.text "num")))).2.Runs one := by
  let later := ((claimedSession.step "q" .compile).1.run
    [("other", .chain .distinct), ("q", .toSql)]).1
  have reached : IsReached "q" claimedSession := ⟨_, _, rfl, rfl⟩
  have looked : OnlyLooked "q" (claimedSession.step "q" .compile).1 later :=
    ⟨_, rfl, by decide +kernel⟩
  have opened : (claimedSession.builderOrNew "q").consumed = false := by decide +kernel
  have quiet : (Reply.next later.replies).1.fault = none :=
    Option.isNone_iff_eq_none.mp (by decide +kernel)
  have group : Terminal.checkStyle (.text "GROUP") = .ok .group :=
    toOption_some.mp (by decide +kernel)
  have num : Terminal.checkStyle (.text "num") = .ok .num := toOption_some.mp (by decide +kernel)
  have text : (claimedSession.compiler.compile
      (Builder.previewed (claimedSession.builderOrNew "q").statement)).toOption.map (·.sql) =
        some "SELECT * FROM users WHERE age > :p1" := by decide +kernel
  have limited : (claimedSession.compiler.compile
      { (claimedSession.builderOrNew "q").statement with
        operation := some .select, limit := some 1 }).toOption.map (·.sql) =
          some "SELECT * FROM users WHERE age > :p1 LIMIT 1" := by decide +kernel
  obtain ⟨-, runs, -⟩ := preview_is_what_runs reached rfl opened looked
  cases hc : claimedSession.compiler.compile
      (Builder.previewed (claimedSession.builderOrNew "q").statement) with
  | error e => rw [hc] at text; cases text
  | ok c =>
      have outcome := (step_compile_ok opened).mpr hc
      rw [hc] at text
      obtain ⟨-, rows⟩ := runs c outcome quiet
      obtain ⟨one, hone, first⟩ :=
        ((rows _ .num num).2 (by decide)).2 (by decide +kernel) (by decide +kernel)
      rw [hone] at limited
      exact ⟨later, c, one, reached, rfl, opened, by decide +kernel, looked, outcome,
        Option.some.inj text, (rows _ .group group).1, Option.some.inj limited, first⟩

end Session
end FluentSql
