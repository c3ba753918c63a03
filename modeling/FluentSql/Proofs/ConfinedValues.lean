import FluentSql.Proofs.BindValues
import FluentSql.Proofs.SessionSteps
import FluentSql.Proofs.ShownErrors
import FluentSql.Proofs.TerminalCalls

/-!
What bind values can reach. Two builders whose statements differ in bind values only, used by
terminal calls that do so too, leave the same results, errors, records and spans behind, and the
same events but for the parameters of the execution. An exception of the database knows these
parameters; it is told to hide them before anything is made of it. Each layer is taken on its own:
what a statement compiles to, the order of a terminal call, the exchange, and the request around it.
-/

namespace FluentSql

/-- Parameters as a database gets them: none, as many, or under the same names in order. -/
def Value.SameBound : Value → Value → Prop
  | .none, .none => True
  | .tuple xs, .tuple ys => xs.length = ys.length
  | .map es, .map fs => es.map (·.1) = fs.map (·.1)
  | _, _ => False

/-- The keys of a map in order; other values have none. -/
def Value.keys? : Value → Option (List Value)
  | .map es => some (es.map (·.1))
  | _ => Option.none

/-- Events that differ in the parameters of an execution only. -/
inductive Event.Alike : Event → Event → Prop
  | same (e : Event) : Alike e e
  | exec (sql : String) {v w : Value} (h : v.SameBound w) : Alike (.exec sql v) (.exec sql w)

abbrev Event.AlikeAll : List Event → List Event → Prop := List.Forall₂ Event.Alike

/-- Terminal calls that differ in the values of a map only. -/
inductive Terminal.Alike : Terminal → Terminal → Prop
  | same (t : Terminal) : Alike t t
  | insert {v w : Value} (h : v.keys? = w.keys?) : Alike (.insert v) (.insert w)
  | update {v w : Value} (h : v.keys? = w.keys?) : Alike (.update v) (.update w)

/-- Reports that differ in the parameters of an execution only, and in what an exception knows of
them without showing it. -/
structure Report.Alike (render : Rendering) (a b : Report) : Prop where
  outcome : SameOutcome render a.outcome b.outcome
  events : Event.AlikeAll a.events b.events
  records : List.Forall₂ (Log.Record.Alike render) a.records b.records
  spans : List.Forall₂ (Span.Alike render) a.spans b.spans

theorem Event.alikeAll_refl (events : List Event) : AlikeAll events events :=
  List.forall₂_same.mpr fun e _ => .same e

namespace Value

variable {v w : Value}

theorem keys?_some {keys : List Value} :
    v.keys? = some keys ↔ ∃ es, v = .map es ∧ es.map (·.1) = keys := by
  cases v <;> simp [keys?]

theorem SameContainer.cases (h : v.SameContainer w) :
    (v = .none ∧ w = .none) ∨
      (∃ xs ys, v = .list xs ∧ w = .list ys ∧ xs.length = ys.length) ∨
      ∃ es fs, v = .map es ∧ w = .map fs ∧ es.map (·.1) = fs.map (·.1) := by
  cases v <;> cases w <;> try exact h.elim
  case none.none => exact .inl ⟨rfl, rfl⟩
  case list.list xs ys => exact .inr (.inl ⟨xs, ys, rfl, rfl, h⟩)
  case map.map es fs => exact .inr (.inr ⟨es, fs, rfl, rfl, h⟩)

theorem SameContainer.truthy (h : v.SameContainer w) : v.truthy = w.truthy := by
  obtain ⟨rfl, rfl⟩ | ⟨xs, ys, rfl, rfl, lengths⟩ | ⟨es, fs, rfl, rfl, keys⟩ := h.cases
  · rfl
  · cases xs <;> cases ys <;> simp at lengths <;> rfl
  · cases es <;> cases fs <;> simp at keys <;> rfl

theorem SameBound.truthy (h : v.SameBound w) : v.truthy = w.truthy := by
  cases v <;> cases w <;> try exact h.elim
  case none.none => rfl
  case tuple.tuple xs ys =>
      have lengths : xs.length = ys.length := h
      cases xs <;> cases ys <;> simp at lengths <;> rfl
  case map.map es fs =>
      have keys : es.map (·.1) = fs.map (·.1) := h
      cases es <;> cases fs <;> simp at keys <;> rfl

end Value

namespace Compiled

variable {v w : Value} {c d : Compiled}

theorem count_alike (h : v.SameContainer w) : count v = count w := by
  simp only [count, h.truthy]
  split
  · rfl
  · obtain ⟨rfl, rfl⟩ | ⟨xs, ys, rfl, rfl, lengths⟩ | ⟨es, fs, rfl, rfl, keys⟩ := h.cases
    · rfl
    · exact congrArg Except.ok lengths
    · have lengths : (es.map (·.1)).length = (fs.map (·.1)).length := congrArg List.length keys
      simpa using lengths

theorem bindParameters_alike (h : v.SameContainer w) :
    Agree Value.SameBound (bindParameters v) (bindParameters w) := by
  simp only [bindParameters, h.truthy]
  split
  · exact Agree.ok trivial
  · obtain ⟨rfl, rfl⟩ | ⟨xs, ys, rfl, rfl, lengths⟩ | ⟨es, fs, rfl, rfl, keys⟩ := h.cases
    · exact Agree.error _
    · exact Agree.ok lengths
    · have bound (entries : List (Value × Value)) :
          (entries.map fun entry => (bindKey entry.1, entry.2)).map (·.1) =
            (entries.map (·.1)).map bindKey := by
        simp only [List.map_map, Function.comp_def]
      refine Agree.ok (?_ : _ = _)
      rw [Entries.keys_ofPairs, Entries.keys_ofPairs, bound, bound, keys]

theorem Alike.paramCount (h : c.Alike d) : c.paramCount = d.paramCount := count_alike h.parameters

theorem Alike.record (h : c.Alike d) : c.record = d.record := by
  simp only [Compiled.record, h.operation, h.table]

end Compiled

/-- Exchanges that end in the same way, with events that differ in parameters only. -/
abbrev Exchange.Alike (a b : List Event × Option Raised) : Prop :=
  Event.AlikeAll a.1 b.1 ∧ a.2 = b.2

namespace Exchange

variable (x : Exchange) (sql : String) {v w : Value}

theorem onConnection_alike (h : v.SameBound w) (r : Reply) :
    Alike (x.onConnection sql v r) (x.onConnection sql w r) := by
  have executed : (Event.exec sql v).Alike (.exec sql w) := .exec sql h
  simp only [onConnection]
  split
  · exact ⟨.cons executed .nil, rfl⟩
  · split
    · exact ⟨.cons executed .nil, rfl⟩
    · exact ⟨.cons executed (Event.alikeAll_refl _), rfl⟩

theorem onEngine_alike (h : v.SameBound w) (r : Reply) :
    Alike (x.onEngine sql v r) (x.onEngine sql w r) := by
  have connection := x.onConnection_alike sql h r
  simp only [onEngine]
  split
  · exact ⟨Event.alikeAll_refl _, rfl⟩
  · generalize x.onConnection sql v r = a, x.onConnection sql w r = b at connection
    obtain ⟨used, fault⟩ := a
    obtain ⟨used', _⟩ := b
    obtain ⟨same, rfl⟩ := connection
    have around (ending : List Event) :
        Event.AlikeAll (.connect :: used ++ ending) (.connect :: used' ++ ending) :=
      .cons (.same _) (List.rel_append same (Event.alikeAll_refl ending))
    cases fault with
    | some e => exact ⟨around _, rfl⟩
    | none =>
        dsimp only
        split <;> exact ⟨around _, rfl⟩

theorem run_alike (handle : Handle) (h : v.SameBound w) (r : Reply) :
    Alike (x.run handle sql v r) (x.run handle sql w r) := by
  simp only [run]
  split
  · exact ⟨.nil, rfl⟩
  · cases handle with
    | engine => exact x.onEngine_alike sql h r
    | live => exact x.onConnection_alike sql h r

end Exchange

namespace Executor

variable (x : Executor) (q : Request) {c d : Compiled} {render : Rendering}

/-- Alike in everything but the events, and alike there. -/
structure Performed.Alike (render : Rendering) (a b : Performed) : Prop where
  outcome : SameOutcome render a.outcome b.outcome
  events : Event.AlikeAll a.events b.events
  records : List.Forall₂ (Log.Record.Alike render) a.records b.records

/-- Alike events execute the same text with alike parameters, or nothing. -/
theorem executed_alike {events events' : List Event} (same : Event.AlikeAll events events') :
    events.findSome? Event.statement? = none ∧ events'.findSome? Event.statement? = none ∨
      ∃ sql v w, events.findSome? Event.statement? = some (sql, v) ∧
        events'.findSome? Event.statement? = some (sql, w) ∧ v.truthy = w.truthy := by
  induction same with
  | nil => exact .inl ⟨rfl, rfl⟩
  | @cons event _ _ _ first _ ih =>
      cases first with
      | exec sql bound => exact .inr ⟨sql, _, _, rfl, rfl, bound.truthy⟩
      | same =>
          cases event with
          | exec sql v => exact .inr ⟨sql, v, v, rfl, rfl, rfl⟩
          | _ => exact ih

/-- What stands behind a report is told to hide what it knows of the values, so it shows none. -/
theorem causeOf_alike (hides : render.Hides) {events events' : List Event}
    (same : Event.AlikeAll events events') (e : Raised) :
    (causeOf events e).Alike render (causeOf events' e) := by
  simp only [causeOf]
  split
  · obtain ⟨none, none'⟩ | ⟨sql, v, w, some, some', truthy⟩ := executed_alike same
    · rw [none, none']
      exact ⟨rfl, rfl, rfl⟩
    · rw [some, some']
      exact ⟨rfl, rfl, hides _ sql rfl truthy⟩
  · exact ⟨rfl, rfl, rfl⟩

theorem payload_alike (system : Value) (h : c.Alike d) (count : Nat) :
    payload system c count = payload system d count := by
  simp only [payload, tableEntry, h.operation, h.table]

/-- The attributes of a span do not tell alike statements apart. -/
theorem found_alike (h : c.Alike d) : x.found q c = x.found q d := by
  simp only [found, spanAttributes, tableEntry, h.paramCount, h.sql, h.operation, h.table]

theorem performFailed_alike (hides : render.Hides) (h : c.Alike d) (count : Nat)
    {events events' : List Event} (same : Event.AlikeAll events events') (e : Raised) :
    (x.performFailed q c count events e).Alike render (x.performFailed q d count events' e) := by
  have cause := causeOf_alike hides same e
  have named : (causeOf events e).name = (causeOf events' e).name :=
    congrArg Raised.name cause.raised
  simp only [performFailed, h.sql, payload_alike x.system h]
  split
  · refine ⟨.error (.failure ⟨rfl, ?_, rfl, .some cause⟩), same, .cons ?_ .nil⟩
    · simp only [Failure.ofQuery, Failure.queryFailed, named]
    · exact ⟨rfl, rfl, rfl, rfl, .some cause⟩
  · exact ⟨.refl _, same, .nil⟩

theorem performDone_alike (h : c.Alike d) (count : Nat) {events events' : List Event}
    (same : Event.AlikeAll events events') (r : Reply) :
    (x.performDone q c count events r).Alike render (x.performDone q d count events' r) := by
  simp only [performDone, successRecord, payload_alike x.system h]
  split <;> exact ⟨.refl _, same, Log.Record.alikeAll_refl _⟩

theorem perform_alike (hides : render.Hides) (h : c.Alike d) (r : Reply) :
    (x.perform q c r).1.Alike render (x.perform q d r).1 ∧
      (x.perform q c r).2 = (x.perform q d r).2 := by
  have nothing (e : Error) :
      Performed.Alike render { outcome := .error e } { outcome := .error e } :=
    ⟨.refl _, .nil, .nil⟩
  simp only [perform, h.paramCount, h.sql]
  cases q.checkFirst with
  | error e => exact ⟨nothing e, rfl⟩
  | ok _ =>
      cases d.paramCount with
      | error e => exact ⟨nothing _, rfl⟩
      | ok count =>
          obtain ⟨e, hc, hd⟩ | ⟨v, w, hc, hd, bound⟩ :=
            (Compiled.bindParameters_alike h.parameters).cases
          · rw [hc, hd]
            exact ⟨nothing e, rfl⟩
          · rw [hc, hd]
            dsimp only
            have exchange := q.exchange.run_alike d.sql x.handle bound r
            generalize q.exchange.run x.handle d.sql v r = a,
              q.exchange.run x.handle d.sql w r = b at exchange
            obtain ⟨events, fault⟩ := a
            obtain ⟨events', _⟩ := b
            obtain ⟨same, rfl⟩ := exchange
            cases fault with
            | some e => exact ⟨x.performFailed_alike q hides h count same e, rfl⟩
            | none => exact ⟨x.performDone_alike q h count same r, rfl⟩

/-- Requests about alike statements leave the same behind, but for the parameters. -/
theorem run_alike (hides : render.Hides) (h : c.Alike d) (replies : List Reply) :
    SameOutcome render (x.run q c replies).outcome (x.run q d replies).outcome ∧
      Event.AlikeAll (x.run q c replies).events (x.run q d replies).events ∧
      List.Forall₂ (Log.Record.Alike render) (x.run q c replies).records
        (x.run q d replies).records ∧
      List.Forall₂ (Span.Alike render) (x.run q c replies).spans (x.run q d replies).spans ∧
      (x.run q c replies).rest = (x.run q d replies).rest := by
  obtain ⟨⟨outcome, events, records⟩, used⟩ := x.perform_alike q hides h (Reply.next replies).1
  obtain ⟨ended, span⟩ := outcome.around (spanName q.name) "CLIENT" (x.found q d)
  simp only [run, x.found_alike q h, used, and_true]
  exact ⟨ended, events, List.rel_append (Log.Record.alikeAll_refl _) records, .cons span .nil⟩

end Executor

/-- Orders about alike statements. -/
structure Order.Alike (a b : Order) : Prop where
  request : a.request = b.request
  compiled : a.compiled.Alike b.compiled
  countsRows : a.countsRows = b.countsRows
  records : a.records = b.records

namespace Terminal

variable {s s' : Statement} {t u : Terminal}

/-- The same complaint about alike statements, or none. -/
abbrev SameComplaint (a b : Statement × Option Error) : Prop := a.1.Alike b.1 ∧ a.2 = b.2

theorem isRaw_alike (h : s.Alike s') : s.isRaw = s'.isRaw := by
  simp only [Statement.isRaw, h.rawSql]

theorem claim_alike (operation : Operation) (h : s.Alike s') :
    Agree Statement.Alike (s.claim operation) (s'.claim operation) := by
  have claimed : { s with operation := some operation }.Alike
      { s' with operation := some operation } := { h with operation := rfl }
  simp only [Statement.claim, h.operation]
  split
  · exact Agree.ok claimed
  · split
    · exact Agree.ok h
    · exact Agree.error _

theorem orKeep_alike (h : s.Alike s') {x y : Except Error Statement}
    (same : Agree Statement.Alike x y) : SameComplaint (Call.orKeep s x) (Call.orKeep s' y) := by
  obtain ⟨e, rfl, rfl⟩ | ⟨a, b, rfl, rfl, alike⟩ := same.cases
  · exact ⟨h, rfl⟩
  · exact ⟨alike, rfl⟩

theorem checkedColumns_alike {es fs : List (Value × Value)} (h : es.map (·.1) = fs.map (·.1)) :
    let checked (entry : Value × Value) : Except Error (String × Value) := do
      .ok (← Identifier.check "column" entry.1, entry.2)
    Agree (fun xs ys => Fields.keys xs = Fields.keys ys) (es.mapM checked) (fs.mapM checked) := by
  intro checked
  induction es generalizing fs with
  | nil =>
      cases fs with
      | nil => exact Agree.ok rfl
      | cons f fs => simp at h
  | cons e es ih =>
      cases fs with
      | nil => simp at h
      | cons f fs =>
          simp only [List.map_cons, List.cons.injEq] at h
          rw [List.mapM_cons, List.mapM_cons]
          refine Agree.bind (r := fun a b => a.1 = b.1) ?_ fun a b first => ?_
          · simp only [checked, h.1]
            exact (Agree.same _).bind fun name _ same => same
          · refine (ih h.2).bind fun as bs rest => Agree.ok ?_
            simp only [Fields.keys, List.map_cons, List.cons.injEq]
            exact ⟨first, rest⟩

theorem columnValues_of_no_map (operation : Operation) {v : Value} (h : v.keys? = none) :
    columnValues operation v = refuse (.missingValues operation) := by
  cases v with
  | map es => cases h
  | _ => rfl

theorem columnValues_alike (operation : Operation) {v w : Value} (h : v.keys? = w.keys?) :
    Agree (fun xs ys => Fields.keys xs = Fields.keys ys) (columnValues operation v)
      (columnValues operation w) := by
  cases keys : v.keys? with
  | none =>
      rw [columnValues_of_no_map operation keys, columnValues_of_no_map operation (h ▸ keys)]
      exact Agree.error _
  | some names =>
      obtain ⟨es, rfl, hv⟩ := Value.keys?_some.mp keys
      obtain ⟨fs, rfl, hw⟩ := Value.keys?_some.mp (h ▸ keys)
      have same : es.map (·.1) = fs.map (·.1) := hv.trans hw.symm
      cases es with
      | nil =>
          rw [List.map_eq_nil_iff.mp same.symm]
          exact Agree.error _
      | cons e es =>
          cases fs with
          | nil => cases same
          | cons f fs =>
              refine (checkedColumns_alike same).bind fun xs ys names => Agree.ok ?_
              rw [Fields.ofPairs, Fields.ofPairs, Fields.keys_insertAll, Fields.keys_insertAll,
                names]

theorem claimWith_alike (operation : Operation) (h : s.Alike s') {v w : Value}
    (keys : v.keys? = w.keys?) :
    SameComplaint (claimWith s operation v) (claimWith s' operation w) := by
  simp only [claimWith]
  obtain ⟨e, hs, hs'⟩ | ⟨a, b, hs, hs', alike⟩ := (claim_alike operation h).cases
  · rw [hs, hs']
    exact ⟨h, rfl⟩
  · rw [hs, hs']
    refine orKeep_alike alike ((columnValues_alike operation keys).bind fun xs ys same => ?_)
    exact Agree.ok { alike with values := same }

theorem claimOnly_alike (operation : Operation) (h : s.Alike s') :
    SameComplaint (claimOnly s operation) (claimOnly s' operation) :=
  orKeep_alike h (claim_alike operation h)

theorem prepare_alike (ht : t.Alike u) (h : s.Alike s') :
    SameComplaint (t.prepare s) (u.prepare s') := by
  have values (operation : Operation) {v w : Value} (keys : v.keys? = w.keys?) :
      SameComplaint (if s'.isRaw then (s, none) else claimWith s operation v)
        (if s'.isRaw then (s', none) else claimWith s' operation w) := by
    split
    · exact ⟨h, rfl⟩
    · exact claimWith_alike operation h keys
  -- the other calls take no values, and claim the statement only
  have other (operation : Operation) :
      SameComplaint (if s'.isRaw then (s, none) else claimOnly s operation)
        (if s'.isRaw then (s', none) else claimOnly s' operation) := by
    split
    · exact ⟨h, rfl⟩
    · exact claimOnly_alike operation h
  cases ht with
  | insert keys | update keys =>
      simp only [prepare, isRaw_alike h]
      exact values _ keys
  | same t =>
      cases t with
      | insert v | update v =>
          simp only [prepare, isRaw_alike h]
          exact values _ rfl
      | execute =>
          simp only [prepare, isRaw_alike h]
          split <;> exact ⟨h, rfl⟩
      | delete | get | one | count | dataframe =>
          simp only [prepare, isRaw_alike h]
          exact other _

theorem request_alike (ht : t.Alike u) (raw : Bool) : t.request raw = u.request raw := by
  cases ht <;> rfl

theorem limited_alike (ht : t.Alike u) (h : s.Alike s') :
    (t.limited s).Alike (u.limited s') := by
  cases ht with
  | insert | update => exact h
  | same t =>
      cases t with
      | one style =>
          simp only [limited, isRaw_alike h, h.limit]
          split
          · exact h
          · exact { h with limit := rfl }
      | _ => exact h

theorem countsRows_alike (ht : t.Alike u) (h : s.Alike s') :
    t.countsRows s = u.countsRows s' := by
  cases ht with
  | insert | update => rfl
  | same t => cases t <;> simp only [countsRows, isRaw_alike h]

theorem compile_alike (k : Compiler) (ht : t.Alike u) (h : s.Alike s') :
    Agree (fun a b => a.1.Alike b.1 ∧ a.2 = b.2) (t.compile k s) (u.compile k s') := by
  have counts : t.isCount = u.isCount := by cases ht <;> rfl
  simp only [compile, isRaw_alike h, counts]
  split
  · exact (Compiler.compile_alike h).bind fun c d alike => Agree.ok ⟨alike, rfl⟩
  · split
    · exact (Compiler.compileCount_alike h).bind fun c d alike => Agree.ok ⟨alike, rfl⟩
    · exact (Compiler.compile_alike h).bind fun c d alike =>
        Agree.ok ⟨alike, congrArg (fun record => [record]) alike.record⟩

/-- Alike terminal calls on alike statements give alike orders, or the same error. -/
theorem finish_alike (k : Compiler) (ht : t.Alike u) (h : s.Alike s') :
    Agree Order.Alike (t.finish k s).2 (u.finish k s').2 := by
  simp only [finish]
  have prepared := prepare_alike ht h
  generalize t.prepare s = a, u.prepare s' = b at prepared
  obtain ⟨a, fault⟩ := a
  obtain ⟨b, _⟩ := b
  obtain ⟨alike, rfl⟩ := prepared
  cases fault with
  | some e => exact Agree.error e
  | none =>
      simp only [request_alike ht, isRaw_alike alike]
      cases u.request b.isRaw with
      | error e => exact Agree.error e
      | ok q =>
          have limited := limited_alike ht alike
          refine (compile_alike k ht limited).bind fun c d compiled => Agree.ok ?_
          exact ⟨rfl, compiled.1, countsRows_alike ht limited, compiled.2⟩

end Terminal

namespace Session

/-- Alike orders to one executor with the same replies are carried out alike. -/
theorem carryOut_alike (s s' : Session) (executor : s.executor? = s'.executor?)
    (replies : s.replies = s'.replies) {render : Rendering} (hides : render.Hides) {o o' : Order}
    (h : o.Alike o') :
    (s.carryOut o).2.Alike render (s'.carryOut o').2 ∧
      (s.carryOut o).1.replies = (s'.carryOut o').1.replies := by
  simp only [carryOut, executor, replies, h.records, h.request, h.countsRows]
  split
  · exact ⟨⟨.refl _, .nil, Log.Record.alikeAll_refl _, .nil⟩, replies⟩
  · next x _ =>
      obtain ⟨outcome, events, records, spans, rest⟩ :=
        x.run_alike o'.request hides h.compiled s'.replies
      refine ⟨⟨outcome.map _, events, ?_, spans⟩, rest⟩
      exact List.rel_append (List.rel_append (Log.Record.alikeAll_refl _) records) outcome.records

/-- Bind values reach nothing but the parameters of an execution. Two open builders whose statements
differ in bind values only, used by terminal calls that do so too, give the same outcome, the same
records and spans, and the same events but for the parameters, and leave the same replies. This
holds however the database layer writes its exceptions, as long as one that is told to hide the
values of its statement does so. -/
theorem bind_values_stay_inside (s : Session) (name : String) {render : Rendering}
    (hides : render.Hides) {b c : Builder} {t u : Terminal} (openFirst : b.consumed = false)
    (openSecond : c.consumed = false) (alike : b.statement.Alike c.statement)
    (calls : t.Alike u) :
    Report.Alike render ((s.store name b).step name (.finish t)).2
        ((s.store name c).step name (.finish u)).2 ∧
      ((s.store name b).step name (.finish t)).1.replies =
        ((s.store name c).step name (.finish u)).1.replies := by
  have held (b : Builder) : (s.store name b).builderOrNew name = b := by
    rw [builderOrNew_store, if_pos rfl]
  have compiler (b : Builder) : (s.store name b).compiler = s.compiler := rfl
  simp only [step, held, compiler, Builder.finish_open openFirst, Builder.finish_open openSecond]
  obtain ⟨e, first, second⟩ | ⟨o, o', first, second, same⟩ :=
    (Terminal.finish_alike s.compiler calls alike).cases
  · rw [first, second]
    exact ⟨⟨.refl _, .nil, Log.Record.alikeAll_refl _, .nil⟩, rfl⟩
  · rw [first, second]
    refine carryOut_alike _ _ ?_ ?_ hides same <;> rfl

/-- A session whose database rejects the next execution. -/
def rejecting : Session where
  compiler := {}
  provider := some { handle := .engine }
  replies := [{ fault := some (.exec, ⟨"IntegrityError", "rejected", false⟩) }]

/-- A builder that looks for a user by a secret. -/
def seeking (secret : Value) : Builder where
  statement := { table := some "users", predicates := [.leaf "secret" .eq (.one secret) .and] }

/-- The text of an exception with its statement, and with the values unless they are hidden. -/
def detailed : Rendering := fun e =>
  match e.statement with
  | none => e.text
  | some (sql, parameters) =>
    let head := s!"{e.text}\n[SQL: {sql}]"
    if !parameters.truthy then head
    else if e.hidesParameters then head ++ "\n[SQL parameters hidden due to hide_parameters=True]"
    else s!"{head}\n[parameters: {parameters.display}]"

theorem detailed_hides : detailed.Hides := by
  intro e sql v w hidden truthy
  simp only [detailed, hidden, truthy]
  rfl

/-- An update that is rejected tells a password and a list of bytes apart in its execution only,
although the exception knows both and shows what it is not told to hide. -/
theorem bind_values_stay_inside_of_rejected :
    let first := (rejecting.store "q" (seeking (.text "hunter2"))).step "q"
      (.finish (.update (.map [(.text "name", .text "me")])))
    let second := (rejecting.store "q" (seeking (.list [.bytes [0, 255]]))).step "q"
      (.finish (.update (.map [(.text "name", .none)])))
    (seeking (.text "hunter2")).statement.Alike (seeking (.list [.bytes [0, 255]])).statement ∧
      detailed.Hides ∧
      detailed ⟨⟨"IntegrityError", "rejected", false⟩, some ("?", .tuple [.text "hunter2"])⟩ =
        "rejected\n[SQL: ?]\n[parameters: ('hunter2',)]" ∧
      first.2.events = [.connect, .exec "UPDATE users SET name = ? WHERE secret = ?"
        (.tuple [.text "me", .text "hunter2"]), .release] ∧
      first.2.Alike detailed second.2 ∧ first.1.replies = second.1.replies := by
  intro first second
  have alike : (seeking (.text "hunter2")).statement.Alike
      (seeking (.list [.bytes [0, 255]])).statement := by
    constructor <;> simp [seeking, Node.AlikeAll, Node.Alike, Operand.Alike, Value.isNone]
  exact ⟨alike, detailed_hides, by decide +kernel, rfl,
    rejecting.bind_values_stay_inside "q" detailed_hides rfl rfl alike (.update rfl)⟩

end Session
end FluentSql
