import FluentSql.Proofs.BuilderHistory
import FluentSql.Proofs.CallOrder

/-!
Raw text. Once a builder was given raw text, nothing else that was asked of it counts: the last text
that it was given is previewed as it is, and every terminal call hands it over as it is, with the
parameters that came with it and no others.
-/

namespace FluentSql

namespace Value

/-- Raw parameters as a preview shows them. -/
def shown : Value → Value
  | .list items | .tuple items => .list items
  | .map entries => .map entries
  | _ => .none

/-- Raw parameters as the database receives them: one tuple, or a map whose keys have lost one
leading colon, or nothing. -/
def handedOver : Value → Value
  | .list items | .tuple items => if items.isEmpty then .none else .tuple items
  | .map entries =>
    if entries.isEmpty then .none
    else .map (entries.map fun (key, v) => (Compiled.bindKey key, v))
  | _ => .none

/-- The keys of a map are still different when they have lost one leading colon. -/
def KeysApart : Value → Prop
  | .map entries => entries.Pairwise fun (key, _) (key', _) =>
      (Compiled.bindKey key).sameKey (Compiled.bindKey key') = false
  | _ => True

end Value

theorem Params.check_shown {v : Value} {params : Option Params} (h : Params.check v = .ok params) :
    Params.optionToValue params = v.shown := by
  cases v with
  | none | map | list | tuple =>
      cases h
      rfl
  | _ => cases h

theorem Compiled.bindParameters_shown {v : Value} {params : Option Params}
    (h : Params.check v = .ok params) (apart : v.KeysApart) :
    bindParameters v.shown = .ok v.handedOver := by
  cases v with
  | none => rfl
  | list items | tuple items =>
      cases items with
      | nil => rfl
      | cons item items => rfl
  | map entries =>
      cases entries with
      | nil => rfl
      | cons entry entries =>
          have kept : Entries.ofPairs ((entry :: entries).map fun (key, v) => (bindKey key, v)) =
              (entry :: entries).map fun (key, v) => (bindKey key, v) :=
            Entries.ofPairs_of_apart (List.pairwise_map.mpr apart)
          exact congrArg (fun bound => Except.ok (Value.map bound)) kept
  | _ => cases h

namespace Call

def raw? : Call → Option (Value × Value)
  | .rawSql sql params => some (sql, params)
  | _ => none

/-- The last raw text of a sequence of calls, with its parameters. -/
def lastRaw? (calls : List Call) : Option (Value × Value) := (calls.filterMap raw?).getLast?

theorem lastRaw?_raw (calls : List Call) (sql params : Value) :
    lastRaw? (calls ++ [.rawSql sql params]) = some (sql, params) := by
  rw [lastRaw?, List.filterMap_append]
  exact List.getLast?_concat

theorem lastRaw?_other (calls : List Call) {c : Call} (other : c.raw? = none) :
    lastRaw? (calls ++ [c]) = lastRaw? calls := by
  rw [lastRaw?, List.filterMap_append, List.filterMap_cons_none other]
  exact congrArg _ (List.append_nil _)

theorem rawText_ok {sql : Value} {text : String} (h : rawText sql = .ok text) :
    sql = .text text := by
  cases sql with
  | text s =>
      simp only [rawText] at h
      split at h
      · cases h
      · cases h
        rfl
  | _ => cases h

end Call

/-- A statement holds the last raw text of a sequence of calls, with its parameters. -/
def Statement.HoldsRaw (calls : List Call) (s : Statement) : Prop :=
  ∀ sql params, Call.lastRaw? calls = some (sql, params) →
    ∃ text, sql = .text text ∧ s.rawSql = some text ∧ Params.check params = .ok s.rawParams

namespace Statement.HoldsRaw

variable {calls : List Call} {s s' : Statement} {c : Call}

/-- Whatever does not touch the raw text. -/
theorem kept (h : HoldsRaw calls s) (sql : s'.rawSql = s.rawSql)
    (params : s'.rawParams = s.rawParams) : HoldsRaw calls s' := by
  intro text parameters last
  rw [sql, params]
  exact h text parameters last

theorem accepted (h : HoldsRaw calls s) (accepted : c.Accepted s s') :
    HoldsRaw (calls ++ [c]) s' := by
  by_cases other : c.raw? = none
  · have same : s'.rawSql = s.rawSql ∧ s'.rawParams = s.rawParams := by
      cases accepted with
      | rawSql => cases other
      | _ => exact ⟨rfl, rfl⟩
    intro sql params last
    rw [Call.lastRaw?_other calls other] at last
    exact h.kept same.1 same.2 sql params last
  · cases accepted with
    | @rawSql sql params text checked read held =>
        intro sql' params' last
        rw [Call.lastRaw?_raw] at last
        cases last
        exact ⟨text, Call.rawText_ok read, rfl, held⟩
    | _ => exact absurd rfl other

theorem residue (h : HoldsRaw calls s) (other : c.raw? = none) : HoldsRaw calls (c.residue s) := by
  have same : (c.residue s).rawSql = s.rawSql ∧ (c.residue s).rawParams = s.rawParams := by
    cases c with
    | rawSql => cases other
    | _ => exact ⟨rfl, rfl⟩
  exact h.kept same.1 same.2

theorem finish (h : HoldsRaw calls s) (k : Compiler) (t : Terminal) :
    HoldsRaw calls (t.finish k s).1 := by
  obtain ⟨operation, values, limit, left, -⟩ := t.finish_frame k s
  apply h.kept
  · rw [left]
  · rw [left]

theorem traced : Traced (·.raw? = none) HoldsRaw where
  new := nofun
  accepted held given := held.accepted given
  refused _ other held := held.residue other
  finish k t held := held.finish k t

end Statement.HoldsRaw

/-- A terminal call whose style, if it takes one, is a style for its answer. -/
def Terminal.StyleFits : Terminal → Prop
  | .get given => ∃ style, checkStyle given = .ok style
  | .one given => ∃ style, checkStyle given = .ok style ∧ style ≠ .group
  | _ => True

theorem Terminal.request_of_styleFits {t : Terminal} (fits : t.StyleFits) (isRaw : Bool) :
    ∃ q, t.request isRaw = .ok q ∧ q.checkFirst = .ok () := by
  cases t with
  | get given =>
      obtain ⟨style, known⟩ := fits
      have asked := request_get known isRaw
      exact ⟨_, asked, checkFirst_of_request rfl asked⟩
  | one given =>
      obtain ⟨style, known, single⟩ := fits
      have asked := request_one known single isRaw
      exact ⟨_, asked, checkFirst_of_request rfl asked⟩
  | count =>
      cases isRaw with
      | true => exact ⟨_, rfl, rfl⟩
      | false => exact ⟨_, rfl, rfl⟩
  | _ => exact ⟨_, rfl, rfl⟩

/-- Whatever the terminal call, a statement with raw text is left and ordered as it is. -/
theorem Terminal.finish_raw {t : Terminal} (fits : t.StyleFits) {s : Statement} {text : String}
    (raw : s.rawSql = some text) (k : Compiler) :
    ∃ q, q.checkFirst = .ok () ∧
      t.finish k s = (s, .ok ⟨q, Compiler.compileRaw s text, t.countsRows s, []⟩) := by
  have isRaw : s.isRaw = true := by rw [Statement.isRaw, raw]; rfl
  have prepared : t.prepare s = (s, none) := by
    cases t <;> simp only [prepare, isRaw, if_true]
  have unlimited : t.limited s = s := by
    cases t with
    | one given => exact limited_bounded (.inl isRaw) given
    | _ => rfl
  have compiled : t.compile k s = .ok (Compiler.compileRaw s text, []) := by
    simp only [compile, isRaw, if_true, Compiler.compile, raw]
    rfl
  obtain ⟨q, asked, first⟩ := t.request_of_styleFits fits s.isRaw
  refine ⟨q, first, ?_⟩
  simp only [finish, prepared, asked, unlimited, compiled]
  rfl

namespace Session

variable {s : Session} {name : String}

theorem refusesOnly_of_noneRefused {admitted : Call → Prop}
    {trace : List ((String × Action) × Report)} (h : NoneRefused name trace) :
    RefusesOnly admitted name trace := by
  intro entry member same c chain refused
  have accepted := h entry member same (by rw [chain]; rfl)
  rw [accepted] at refused
  cases refused

/-- A terminal call on a builder with raw text executes that text with its parameters, or nothing if
the database cannot be reached. -/
theorem step_finish_raw {p : Provider} (provider : s.provider = some p)
    (opened : (s.builderOrNew name).consumed = false) {text : String}
    (raw : (s.builderOrNew name).statement.rawSql = some text) {params : Value}
    (held : Params.check params = .ok (s.builderOrNew name).statement.rawParams)
    (apart : params.KeysApart) {t : Terminal} (fits : t.StyleFits) :
    Event.execs (s.step name (.finish t)).2.events =
      if (Reply.next s.replies).1.reaches p.handle then [.exec text params.handedOver] else [] := by
  obtain ⟨q, first, ordered⟩ := Terminal.finish_raw fits raw s.compiler
  have compiled : s.compiler.compile (s.builderOrNew name).statement =
      .ok (Compiler.compileRaw (s.builderOrNew name).statement text) := by
    rw [Compiler.compile, raw]
  obtain ⟨count, counted⟩ := Compiler.compile_countable compiled
  have bound : Compiled.bindParameters
      (Compiler.compileRaw (s.builderOrNew name).statement text).parameters =
        .ok params.handedOver := by
    rw [Compiler.compileRaw, Params.check_shown held]
    exact Compiled.bindParameters_shown held apart
  have executor (b : Builder) :
      (s.store name b).executor? = some ⟨p.handle, .text s.compiler.dialect⟩ := by
    simp only [executor?, store, provider]
    rfl
  simp only [step, Builder.finish_open opened, ordered, carryOut, executor]
  exact Executor.perform_execs_eq _ q _ first counted bound _

/-- Whatever else was asked of a builder that was given raw text, as long as no raw text was
refused: the last raw text is what a preview shows, and what every terminal call hands over, as it
is and with its own parameters. -/
theorem raw_text_is_handed_over {p : Provider} (provider : s.provider = some p)
    (new : s.builderOrNew name = {}) {steps : List (String × Action)}
    (unrefused : RefusesOnly (·.raw? = none) name (s.trace steps)) {sql params : Value}
    (last : Call.lastRaw? (acceptedCalls name (s.trace steps)) = some (sql, params))
    (opened : ((s.run steps).1.builderOrNew name).consumed = false) :
    let now := (s.run steps).1
    ∃ text, sql = .text text ∧
      (now.step name .compile).2.outcome =
        .ok (.compiled ⟨text, params.shown, some "EXECUTE_SQL", none⟩) ∧
      (params.KeysApart → ∀ t : Terminal, t.StyleFits →
        Event.execs (now.step name (.finish t)).2.events =
          if (Reply.next now.replies).1.reaches p.handle then [.exec text params.handedOver]
          else []) := by
  intro now
  have holds := s.traced_run name Statement.HoldsRaw.traced new steps unrefused
  obtain ⟨text, given, raw, held⟩ := holds sql params last
  refine ⟨text, given, ?_, fun apart t fits => ?_⟩
  · have isRaw : (now.builderOrNew name).statement.isRaw = true := by
      rw [Statement.isRaw, raw]
      rfl
    rw [step_compile_ok opened, Builder.previewed_raw isRaw]
    simp only [Compiler.compile, now, raw, Compiler.compileRaw, Params.check_shown held]
    rfl
  · have there : now.provider = some p := (s.run_keeps steps).2.trans provider
    exact step_finish_raw there opened raw held apart fits

/-- Calls around two raw texts, of which the second one is the last. -/
def retoldSteps : List (String × Action) :=
  [("q", .startRaw (.text "SELECT 1 WHERE ?") (.list [.int 1])),
    ("q", .chain (.condition "where" [.text "age", .text ">", .int 18])), ("q", .compile),
    ("q", .chain (.rawSql (.text " CALL refresh(:day)") (.map [(.text ":day", .int 7)]))),
    ("q", .chain (.limit (.int 5))), ("q", .chain .distinct)]

/-- An insertion of nothing executes the raw text of the builder all the same. -/
theorem raw_text_is_handed_over_of_retold :
    ∃ s : Session, s.provider = some ⟨.engine, true⟩ ∧ s.builderOrNew "q" = {} ∧
      NoneRefused "q" (s.trace retoldSteps) ∧
      (((s.run retoldSteps).1.step "q" .compile).2.outcome = .ok (.compiled
        ⟨" CALL refresh(:day)", .map [(.text ":day", .int 7)], some "EXECUTE_SQL", none⟩)) ∧
      Event.execs ((s.run retoldSteps).1.step "q" (.finish (.insert .none))).2.events =
        [.exec " CALL refresh(:day)" (.map [(.text "day", .int 7)])] := by
  let s : Session := { compiler := {}, provider := some ⟨.engine, true⟩ }
  have accepted : NoneRefused "q" (s.trace retoldSteps) := by decide +kernel
  have last : Call.lastRaw? (acceptedCalls "q" (s.trace retoldSteps)) =
      some (.text " CALL refresh(:day)", .map [(.text ":day", .int 7)]) := by
    rfl
  have opened : ((s.run retoldSteps).1.builderOrNew "q").consumed = false := by decide +kernel
  have apart : (Value.map [(.text ":day", .int 7)]).KeysApart := List.pairwise_singleton _ _
  obtain ⟨text, given, previewed, handed⟩ := raw_text_is_handed_over rfl rfl
    (refusesOnly_of_noneRefused accepted) last opened
  cases given
  exact ⟨s, rfl, rfl, accepted, previewed, handed apart (.insert .none) trivial⟩

end Session
end FluentSql
