import FluentSql.Proofs.BuilderHistory
import FluentSql.Proofs.ClauseOrder
import FluentSql.Proofs.PreviewedRuns

/-!
The order of chained calls. Every call belongs to a group and reads and writes the fields of its
group alone, so a sequence of accepted calls comes apart into one sequence for each group, and a
statement is put together from what these leave. Sequences that agree group by group are accepted
alike and lead to one statement, whose clauses are written in an order of their own.
-/

namespace FluentSql

/-- The calls that read and write the same fields of a statement. -/
inductive Call.Group where
  | table
  | projection
  | distinct
  | joins
  | predicates
  | grouping
  | having
  | ordering
  | paging
  | raw
  | consent
deriving DecidableEq, Repr

def Call.group : Call → Group
  | .table _ => .table
  | .select _ => .projection
  | .distinct => .distinct
  | .join .. => .joins
  | .condition .. => .predicates
  | .groupBy _ | .groupByRaw .. => .grouping
  | .having .. | .havingRaw .. => .having
  | .orderBy .. | .orderByRaw .. => .ordering
  | .limit _ | .offset _ | .paginate .. => .paging
  | .rawSql .. => .raw
  | .unconditional => .consent

/-- A statement with nothing but the fields of a group. -/
def Statement.only (s : Statement) : Call.Group → Statement
  | .table => { table := s.table }
  | .projection => { operation := s.operation, columns := s.columns }
  | .distinct => { distinct := s.distinct }
  | .joins => { joins := s.joins }
  | .predicates => { predicates := s.predicates }
  | .grouping => { grouping := s.grouping }
  | .having => { having := s.having }
  | .ordering => { ordering := s.ordering }
  | .paging => { limit := s.limit, offset := s.offset }
  | .raw => { rawSql := s.rawSql, rawParams := s.rawParams }
  | .consent => { unconditional := s.unconditional }

/-- A statement put together from its groups. -/
def Statement.ofGroups (part : Call.Group → Statement) (values : List (String × Value)) :
    Statement where
  operation := (part .projection).operation
  table := (part .table).table
  columns := (part .projection).columns
  distinct := (part .distinct).distinct
  values := values
  joins := (part .joins).joins
  predicates := (part .predicates).predicates
  having := (part .having).having
  grouping := (part .grouping).grouping
  ordering := (part .ordering).ordering
  limit := (part .paging).limit
  offset := (part .paging).offset
  rawSql := (part .raw).rawSql
  rawParams := (part .raw).rawParams
  unconditional := (part .consent).unconditional

/-- Statements that agree in every group and in their values are the same. -/
theorem Statement.ext_only {s t : Statement} (groups : ∀ g, s.only g = t.only g)
    (values : s.values = t.values) : s = t :=
  calc
    s = ofGroups s.only s.values := rfl
    _ = ofGroups t.only t.values := by rw [funext groups, values]
    _ = t := rfl

namespace Call

variable {s s' t : Statement} {c : Call} {g : Group}

/-- An accepted call leaves the fields of other groups and the values as they are. -/
theorem Accepted.frame (h : c.Accepted s s') :
    (∀ g, c.group ≠ g → s'.only g = s.only g) ∧ s'.values = s.values := by
  constructor
  · intro g other
    -- a call changes no field of a group but its own
    cases h <;> cases g <;> first | rfl | exact absurd rfl other
  · cases h <;> rfl

/-- An accepted call is accepted for the same reasons where there is nothing but its group. -/
theorem Accepted.only (h : c.Accepted s s') : c.Accepted (s.only c.group) (s'.only c.group) := by
  cases h with
  | table read => exact .table read
  | select free read => exact .select free read
  | distinct => exact .distinct
  | join read => exact .join read
  | condition read => exact .condition read
  | groupBy given read => exact .groupBy given read
  | groupByRaw read => exact .groupByRaw read
  | having read => exact .having read
  | havingRaw read => exact .havingRaw read
  | orderBy read => exact .orderBy read
  | orderByRaw read => exact .orderByRaw read
  | limit read => exact .limit read
  | offset read => exact .offset read
  | paginate read => exact .paginate read
  | rawSql read held => exact .rawSql read held
  | unconditional => exact .unconditional

/-- A call that is accepted where there is nothing but its group is accepted beside the others. -/
theorem accepted_of_only (h : c.Accepted (s.only c.group) t) :
    ∃ s', c.Accepted s s' ∧ s'.only c.group = t := by
  cases h with
  | table read => exact ⟨_, .table read, rfl⟩
  | select free read => exact ⟨_, .select free read, rfl⟩
  | distinct => exact ⟨_, .distinct, rfl⟩
  | join read => exact ⟨_, .join read, rfl⟩
  | condition read => exact ⟨_, .condition read, rfl⟩
  | groupBy given read => exact ⟨_, .groupBy given read, rfl⟩
  | groupByRaw read => exact ⟨_, .groupByRaw read, rfl⟩
  | having read => exact ⟨_, .having read, rfl⟩
  | havingRaw read => exact ⟨_, .havingRaw read, rfl⟩
  | orderBy read => exact ⟨_, .orderBy read, rfl⟩
  | orderByRaw read => exact ⟨_, .orderByRaw read, rfl⟩
  | limit read => exact ⟨_, .limit read, rfl⟩
  | offset read => exact ⟨_, .offset read, rfl⟩
  | paginate read => exact ⟨_, .paginate read, rfl⟩
  | rawSql read held => exact ⟨_, .rawSql read held, rfl⟩
  | unconditional => exact ⟨_, .unconditional, rfl⟩

theorem Accepted.unique (h : c.Accepted s s') (h' : c.Accepted s t) : s' = t :=
  (Prod.mk.inj ((apply_accepted.mpr h).symm.trans (apply_accepted.mpr h'))).1

/-- The statement that a sequence of accepted calls leads to. -/
inductive AllAccepted : Statement → List Call → Statement → Prop
  | nil (s : Statement) : AllAccepted s [] s
  | cons {s s₁ s' : Statement} {c : Call} {calls : List Call} (first : c.Accepted s s₁)
      (rest : AllAccepted s₁ calls s') : AllAccepted s (c :: calls) s'

def ofGroup (g : Group) (calls : List Call) : List Call := calls.filter (·.group = g)

variable {calls : List Call}

theorem AllAccepted.unique (h : AllAccepted s calls s') (h' : AllAccepted s calls t) : s' = t := by
  induction h with
  | nil s => cases h'; rfl
  | cons first _ ih =>
      cases h' with
      | cons first' rest' =>
          obtain rfl := first.unique first'
          exact ih rest'

theorem AllAccepted.values (h : AllAccepted s calls s') : s'.values = s.values := by
  induction h with
  | nil s => rfl
  | cons first _ ih => rw [ih, first.frame.2]

/-- What a sequence does to a group, the calls of the group do by themselves. -/
theorem AllAccepted.only (h : AllAccepted s calls s') (g : Group) :
    AllAccepted (s.only g) (ofGroup g calls) (s'.only g) := by
  induction h with
  | nil s => exact .nil _
  | @cons s s₁ s' c calls first _ ih =>
      by_cases own : c.group = g
      · subst own
        rw [ofGroup, List.filter_cons_of_pos (by simp)]
        exact .cons first.only ih
      · rw [ofGroup, List.filter_cons_of_neg (by simpa using own), ← first.frame.1 g own]
        exact ih

theorem allAccepted_of_only (s : Statement) (calls : List Call)
    (h : ∀ g, ∃ t, AllAccepted (s.only g) (ofGroup g calls) t) :
    ∃ s', AllAccepted s calls s' := by
  induction calls generalizing s with
  | nil => exact ⟨s, .nil s⟩
  | cons c calls ih =>
      obtain ⟨t, ht⟩ := h c.group
      rw [ofGroup, List.filter_cons_of_pos (by simp)] at ht
      cases ht with
      | cons first rest =>
          -- the call leaves its own group as it does by itself, and the others untouched, so what
          -- is left of every group is still accepted
          obtain ⟨s₁, accepted, rfl⟩ := accepted_of_only first
          obtain ⟨s', hs'⟩ := ih s₁ fun g => by
            by_cases own : c.group = g
            · exact own ▸ ⟨_, rest⟩
            · obtain ⟨u, hu⟩ := h g
              rw [ofGroup, List.filter_cons_of_neg (by simpa using own),
                ← accepted.frame.1 g own] at hu
              exact ⟨u, hu⟩
          exact ⟨s', .cons accepted hs'⟩

/-- Sequences that agree group by group are accepted alike and lead to one statement. -/
theorem AllAccepted.regroup {calls' : List Call}
    (same : ∀ g, ofGroup g calls = ofGroup g calls') (h : AllAccepted s calls s') :
    AllAccepted s calls' s' := by
  have groups (g : Group) : AllAccepted (s.only g) (ofGroup g calls') (s'.only g) := by
    rw [← same g]
    exact h.only g
  obtain ⟨t, ht⟩ := allAccepted_of_only s calls' fun g => ⟨_, groups g⟩
  -- within a group the calls lead to one statement only
  have equal : t = s' := by
    refine Statement.ext_only (fun g => ?_) (ht.values.trans h.values.symm)
    exact (ht.only g).unique (groups g)
  rw [← equal]
  exact ht

end Call

namespace Builder

variable {b : Builder} {c : Call}

theorem chain_accepted (opened : b.consumed = false) {s' : Statement}
    (h : c.Accepted b.statement s') : b.chain c = (⟨s', false⟩, none) := by
  rw [chain_open opened, Call.apply_accepted.mpr h, opened]

theorem accepted_of_chain (opened : b.consumed = false) (h : (b.chain c).2.isNone = true) :
    ∃ s', c.Accepted b.statement s' := by
  rw [chain_open opened] at h
  have fault : (c.apply b.statement).2 = none := Option.isNone_iff_eq_none.mp h
  exact ⟨_, Call.apply_accepted.mp (Prod.ext rfl fault)⟩

end Builder

def Action.chained? : Action → Option Call
  | .chain c => some c
  | _ => none

theorem Action.chained?_isSome {a : Action} : a.chained?.isSome = true ↔ ∃ c, a = .chain c := by
  cases a with
  | chain c => exact iff_of_true rfl ⟨c, rfl⟩
  | _ => exact iff_of_false nofun nofun

namespace Session

/-- The calls that steps chain on the builder of a name, in order. -/
def chained (name : String) (steps : List (String × Action)) : List Call :=
  steps.filterMap fun (m, a) => if m = name then a.chained? else none

/-- Whether steps do nothing on the builder of a name but chain calls and look at it. -/
def OnlyChains (name : String) (steps : List (String × Action)) : Prop :=
  ∀ step ∈ steps, step.1 = name → step.2.chained?.isSome = true ∨ step.2.isLook = true

instance (name : String) (steps : List (String × Action)) : Decidable (OnlyChains name steps) :=
  inferInstanceAs (Decidable (∀ step ∈ steps, _))

/-- Whether every call that was chained on the builder of a name succeeded. -/
def NoneRefused (name : String) (trace : List ((String × Action) × Report)) : Prop :=
  ∀ entry ∈ trace, entry.1.1 = name → entry.1.2.chained?.isSome = true →
    entry.2.outcome.isOk = true

instance (name : String) (trace : List ((String × Action) × Report)) :
    Decidable (NoneRefused name trace) :=
  inferInstanceAs (Decidable (∀ entry ∈ trace, _))

variable {s : Session} {name : String} {steps : List (String × Action)}

theorem noneRefused_cons {m : String} {a : Action} :
    NoneRefused name (s.trace ((m, a) :: steps)) ↔
      (m = name → a.chained?.isSome = true → (s.step m a).2.outcome.isOk = true) ∧
        NoneRefused name ((s.step m a).1.trace steps) := by
  rw [NoneRefused, trace_cons]
  exact List.forall_mem_cons

theorem opened_run (opened : (s.builderOrNew name).consumed = false)
    (chains : OnlyChains name steps) : ((s.run steps).1.builderOrNew name).consumed = false := by
  refine s.builder_run name (·.consumed = false)
    (fun a => a.chained?.isSome = true ∨ a.isLook = true) (fun b k accepted a opened kind => ?_)
    opened steps chains
  obtain chains | look := kind
  · obtain ⟨c, rfl⟩ := Action.chained?_isSome.mp chains
    rw [Builder.after, Builder.chain_open opened]
    exact opened
  · rw [Builder.after_look b k accepted look]
    exact opened

/-- A step chains a call on the builder of a name, or passes by it. -/
theorem step_cases {m : String} {a : Action}
    (kind : m = name → a.chained?.isSome = true ∨ a.isLook = true) :
    (∃ c, m = name ∧ a = .chain c) ∨
      ((m = name → a.chained? = none) ∧
        (s.step m a).1.builderOrNew name = s.builderOrNew name) := by
  have left := s.builderOrNew_step m a name
  by_cases own : name = m
  · subst own
    rw [if_pos rfl] at left
    obtain chain | look := kind rfl
    · obtain ⟨c, rfl⟩ := Action.chained?_isSome.mp chain
      exact .inl ⟨c, rfl, rfl⟩
    · refine .inr ⟨fun _ => ?_, by rw [left, Builder.after_look _ _ _ look]⟩
      cases a with
      | chain c => cases look
      | _ => rfl
  · rw [if_neg own] at left
    exact .inr ⟨fun same => absurd same.symm own, left⟩

theorem chained_chain (c : Call) :
    chained name ((name, .chain c) :: steps) = c :: chained name steps :=
  List.filterMap_cons_some (if_pos rfl)

theorem chained_passed {m : String} {a : Action} (none : m = name → a.chained? = none) :
    chained name ((m, a) :: steps) = chained name steps := by
  refine List.filterMap_cons_none ?_
  by_cases own : m = name
  · exact (if_pos own).trans (none own)
  · exact if_neg own

/-- Steps of which no call is refused lead a builder along a sequence of accepted calls, and where
there is such a sequence no call is refused. -/
theorem run_iff_allAccepted (opened : (s.builderOrNew name).consumed = false)
    (chains : OnlyChains name steps) (t : Statement) :
    NoneRefused name (s.trace steps) ∧ (s.run steps).1.builderOrNew name = ⟨t, false⟩ ↔
      Call.AllAccepted (s.builderOrNew name).statement (chained name steps) t := by
  induction steps generalizing s with
  | nil =>
      constructor
      · rintro ⟨-, same⟩
        rw [show s.builderOrNew name = ⟨t, false⟩ from same]
        exact .nil t
      · intro h
        cases h
        exact ⟨List.forall_mem_nil _, by rw [run, ← opened]⟩
  | cons step steps ih =>
      obtain ⟨m, a⟩ := step
      obtain ⟨kind, others⟩ := List.forall_mem_cons.mp chains
      rw [noneRefused_cons, run_cons]
      obtain ⟨c, rfl, rfl⟩ | ⟨none, same⟩ := step_cases (s := s) kind
      · have left := s.builderOrNew_step m (.chain c) m
        rw [if_pos rfl, Builder.after] at left
        rw [chained_chain, isOk_chain]
        constructor
        · rintro ⟨⟨succeeded, rest⟩, final⟩
          obtain ⟨s₁, accepted⟩ := Builder.accepted_of_chain opened (succeeded rfl rfl)
          rw [Builder.chain_accepted opened accepted] at left
          have later := (ih (by rw [left]) others).mp ⟨rest, final⟩
          rw [left] at later
          exact .cons accepted later
        · intro h
          cases h with
          | cons accepted rest =>
              have chained := Builder.chain_accepted opened accepted
              rw [chained] at left
              obtain ⟨unrefused, final⟩ :=
                (ih (by rw [left]) others).mpr (by rw [left]; exact rest)
              exact ⟨⟨fun _ _ => by rw [chained]; rfl, unrefused⟩, final⟩
      · -- what passes by the builder refuses no call on it
        have unrefused : m = name → a.chained?.isSome = true →
            (s.step m a).2.outcome.isOk = true := by
          intro own chain
          rw [none own] at chain
          cases chain
        rw [chained_passed none, ← same, ← ih (by rw [same]; exact opened) others]
        exact and_congr_left fun _ => and_iff_right unrefused

variable {s' : Session} {name' : String} {steps' : List (String × Action)}

theorem step_look {a : Action} (look : a.isLook = true)
    (builder : s.builderOrNew name = s'.builderOrNew name') (compiler : s.compiler = s'.compiler) :
    (s.step name a).2 = (s'.step name' a).2 := by
  cases a with
  | compile | toSql | statement | consumed => simp only [step, builder, compiler]
  | _ => cases look

/-- A preview of an open builder that was not claimed for writing has its clauses in order. -/
theorem inClauseOrder_of_preview {t : Statement} (builder : s.builderOrNew name = ⟨t, false⟩)
    (given : t.isRaw = false) (free : t.operation = none ∨ t.operation = some .select)
    {c : Compiled} (h : (s.step name .compile).2.outcome = .ok (.compiled c)) :
    t.InClauseOrder s.compiler c.sql := by
  rw [step_compile_ok (by rw [builder]), builder, Builder.previewed_free given free] at h
  exact Compiler.inClauseOrder_of_compile given h

/-- The order of calls of different groups does not matter. Where one sequence of calls on a new
builder has no refused call, neither has any other one with the same calls of each group in the same
order, whatever else happens in the sessions as long as the two builders are only looked at. The
builders then hold one statement, look the same and order the same from the database, and a SELECT
has its clauses in the fixed order. -/
theorem call_order_does_not_matter (compiler : s.compiler = s'.compiler)
    (new : s.builderOrNew name = {}) (new' : s'.builderOrNew name' = {})
    (chains : OnlyChains name steps) (chains' : OnlyChains name' steps')
    (same : ∀ g, Call.ofGroup g (chained name steps) = Call.ofGroup g (chained name' steps'))
    (accepted : NoneRefused name (s.trace steps)) :
    NoneRefused name' (s'.trace steps') ∧
      ∃ t : Statement, (s.run steps).1.builderOrNew name = ⟨t, false⟩ ∧
        (s'.run steps').1.builderOrNew name' = ⟨t, false⟩ ∧
        (∀ a : Action, a.isLook = true →
          ((s.run steps).1.step name a).2 = ((s'.run steps').1.step name' a).2) ∧
        (∀ call : Terminal,
          ((s.run steps).1.builderOrNew name).finish (s.run steps).1.compiler call =
            ((s'.run steps').1.builderOrNew name').finish (s'.run steps').1.compiler call) ∧
        (t.isRaw = false → ∀ c,
          ((s.run steps).1.step name .compile).2.outcome = .ok (.compiled c) →
            t.InClauseOrder s.compiler c.sql) := by
  obtain ⟨t, built⟩ : ∃ t, (s.run steps).1.builderOrNew name = ⟨t, false⟩ := by
    have opened : (s.builderOrNew name).consumed = false := by rw [new]
    exact ⟨_, by rw [← opened_run opened chains]⟩
  have calls := (run_iff_allAccepted (by rw [new]) chains t).mp ⟨accepted, built⟩
  rw [new, ← new'] at calls
  obtain ⟨accepted', built'⟩ :=
    (run_iff_allAccepted (by rw [new']) chains' t).mpr (calls.regroup same)
  have builders := built.trans built'.symm
  have compilers : (s.run steps).1.compiler = (s'.run steps').1.compiler := by
    rw [(s.run_keeps steps).1, (s'.run_keeps steps').1, compiler]
  refine ⟨accepted', t, built, built', fun a look => step_look look builders compilers,
    fun call => by rw [builders, compilers], fun given c h => ?_⟩
  have reached : IsReached name (s.run steps).1 := ⟨s, steps, new, rfl⟩
  have claims := reached.openReads
  rw [built] at claims
  rw [← (s.run_keeps steps).1]
  exact inClauseOrder_of_preview built given (claims rfl) h

/-- Calls in the order of their clauses. -/
def clauseByClause : List (String × Action) :=
  [("q", .chain (.table (.text "orders"))), ("q", .chain (.select [.text "country"])),
    ("q", .chain (.condition "where" [.text "age", .text ">", .int 18])),
    ("q", .chain (.condition "where" [.text "state", .text "on"])),
    ("q", .chain (.groupBy [.text "country"])),
    ("q", .chain (.having .and (.text "total") (.text ">") (.int 100))),
    ("q", .chain (.limit (.int 5)))]

/-- The same calls from the last clause to the first, with previews between them. -/
def lastClauseFirst : List (String × Action) :=
  [("r", .compile), ("r", .chain (.limit (.int 5))),
    ("r", .chain (.having .and (.text "total") (.text ">") (.int 100))), ("r", .toSql),
    ("r", .chain (.condition "where" [.text "age", .text ">", .int 18])), ("q", .chain .distinct),
    ("r", .chain (.groupBy [.text "country"])),
    ("r", .chain (.condition "where" [.text "state", .text "on"])), ("r", .compile),
    ("r", .chain (.select [.text "country"])), ("r", .chain (.table (.text "orders")))]

theorem call_order_does_not_matter_of_previewed :
    ∃ s s' : Session, s.compiler = s'.compiler ∧ s.builderOrNew "q" = {} ∧
      s'.builderOrNew "r" = {} ∧ OnlyChains "q" clauseByClause ∧ OnlyChains "r" lastClauseFirst ∧
      (∀ g, Call.ofGroup g (chained "q" clauseByClause) =
        Call.ofGroup g (chained "r" lastClauseFirst)) ∧
      NoneRefused "q" (s.trace clauseByClause) ∧ NoneRefused "r" (s'.trace lastClauseFirst) ∧
      ∃ t c, (s.run clauseByClause).1.builderOrNew "q" = ⟨t, false⟩ ∧
        (s'.run lastClauseFirst).1.builderOrNew "r" = ⟨t, false⟩ ∧
        ((s'.run lastClauseFirst).1.step "r" .compile).2.outcome = .ok (.compiled c) ∧
        c.sql = "SELECT country FROM orders WHERE age > :p1 AND state = :p2 GROUP BY country " ++
          "HAVING total > :p3 LIMIT 5" ∧ t.InClauseOrder s.compiler c.sql := by
  let s : Session := { compiler := { style := .named } }
  let s' : Session := { s with provider := some ⟨.engine, true⟩ }
  have chains : OnlyChains "q" clauseByClause := by decide +kernel
  have chains' : OnlyChains "r" lastClauseFirst := by decide +kernel
  have same (g : Call.Group) : Call.ofGroup g (chained "q" clauseByClause) =
      Call.ofGroup g (chained "r" lastClauseFirst) := by
    cases g <;> rfl
  have accepted : NoneRefused "q" (s.trace clauseByClause) := by decide +kernel
  have compiler : s.compiler = s'.compiler := rfl
  have new : s.builderOrNew "q" = {} := rfl
  have new' : s'.builderOrNew "r" = {} := rfl
  obtain ⟨accepted', t, built, built', looks, -, ordered⟩ :=
    call_order_does_not_matter compiler new new' chains chains' same accepted
  have open' : ((s'.run lastClauseFirst).1.builderOrNew "r").consumed = false := by rw [built']
  have text : ((s'.run lastClauseFirst).1.compiler.compile (Builder.previewed
      ((s'.run lastClauseFirst).1.builderOrNew "r").statement)).toOption.map (·.sql) =
        some ("SELECT country FROM orders WHERE age > :p1 AND state = :p2 GROUP BY country " ++
          "HAVING total > :p3 LIMIT 5") := by decide +kernel
  have given : t.isRaw = false := by
    have raw : ((s'.run lastClauseFirst).1.builderOrNew "r").statement.isRaw = false := by
      decide +kernel
    rw [built'] at raw
    exact raw
  cases hc : (s'.run lastClauseFirst).1.compiler.compile (Builder.previewed
      ((s'.run lastClauseFirst).1.builderOrNew "r").statement) with
  | error e => rw [hc] at text; cases text
  | ok c =>
      have outcome := (step_compile_ok open').mpr hc
      have first := outcome
      rw [← looks .compile rfl] at first
      rw [hc] at text
      exact ⟨s, s', compiler, new, new', chains, chains', same, accepted, accepted', t, c, built,
        built', outcome, Option.some.inj text, ordered given c first⟩

end Session
end FluentSql
