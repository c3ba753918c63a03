import FluentSql.Proofs.Exchanges

/-!
Fetch styles and the database. A request for one row looks at its style before anything else, so a
style that it does not take leaves no trace. A request for all rows looks at its style when the rows
are there: it asks the same of the database whatever style it is given, and complains about the
style only when its text has been executed.
-/

namespace FluentSql

theorem FetchStyle.ofText?_iff {s : String} {style : FetchStyle} :
    ofText? s = some style ↔ s = style.text := by
  constructor
  · intro found
    have spelled := List.find?_some (p := fun style : FetchStyle => style.text == s) found
    exact (beq_iff_eq.mp spelled).symm
  · rintro rfl
    cases style <;> rfl

namespace Rows

/-- A value that names a style. -/
def IsStyle (v : Value) : Prop := ∃ style : FetchStyle, v = .text style.text

/-- The complaint about a value that is no style; a number of too many digits cannot be shown. -/
def noStyle (v : Value) : Error :=
  .raised (if v.isWritable then .valueError (v.display ++ " is not a valid FetchStyle")
    else .tooManyDigits)

theorem readStyle_text (style : FetchStyle) : readStyle (.text style.text) = .ok style := by
  cases style <;> rfl

theorem readStyle_other {v : Value} (other : ¬ IsStyle v) : readStyle v = .error (noStyle v) := by
  cases v with
  | text s =>
      cases read : FetchStyle.ofText? s with
      | none =>
          simp only [readStyle, read]
          rfl
      | some style =>
          exact absurd ⟨style, congrArg Value.text (FetchStyle.ofText?_iff.mp read)⟩ other
  | _ => rfl

/-- Rows can always be given as they are. -/
theorem shape_num (keys : List String) (rows : List (List Value)) :
    shape keys rows .num = .ok (.list (rows.map .tuple)) := by
  have each : rows.mapM (fun row => shapeOne keys row .num) = .ok (rows.map Value.tuple) := by
    rw [mapM_ok_iff, List.forall₂_map_right_iff]
    exact List.forall₂_same.mpr fun _ _ => rfl
  rw [shape, each]
  · rfl
  · nofun

end Rows

/-- The request for all rows as they are. -/
def Request.plain : Request := .all (.text FetchStyle.num.text)

/-- An exchange that nothing ends before its time gets as far as executing its text. -/
theorem Exchange.reaches_of_completed {x : Exchange} {handle : Handle} {sql : String}
    {parameters : Value} {r : Reply} (completed : (x.run handle sql parameters r).2 = none) :
    r.reaches handle = true := by
  rw [run_fault, List.findSome?_eq_none_iff] at completed
  cases handle with
  | live => rw [Reply.reaches, completed .get List.mem_cons_self]; rfl
  | engine =>
      rw [Reply.reaches, completed .get List.mem_cons_self,
        completed .connect (List.mem_cons_of_mem _ List.mem_cons_self)]
      rfl

namespace Executor

variable (x : Executor) (c : Compiled) (v : Value)

/-- The request fails with the error, and nothing was asked of the provider and the database: there
is no event, and no reply is used. -/
structure StoppedBy (q : Request) (e : Error) (replies : List Reply) : Prop where
  outcome : (x.run q c replies).outcome = .error e
  events : (x.run q c replies).events = []
  rest : (x.run q c replies).rest = replies

theorem stoppedBy_of_check {q : Request} {e : Error} (refused : q.checkFirst = .error e)
    (replies : List Reply) : x.StoppedBy c q e replies := by
  have stopped : x.perform q c (Reply.next replies).1 = ({ outcome := .error e }, false) := by
    simp only [perform, refused]
  constructor
  · rw [x.run_outcome, stopped]
  · simp only [run, stopped]
  · simp only [run, stopped]
    rfl

theorem plain_answer (r : Reply) :
    Answer.ofReply .plain r = .ok (.value (.list (r.rows.map .tuple))) := by
  simp only [Answer.ofReply, Request.plain, Rows.readStyle_text, bind, Except.bind, Rows.shape_num]

/-- A request for all rows does what the request for the rows as they are does, and looks at its
style only when the rows are there. -/
theorem perform_all (r : Reply) :
    x.perform (.all v) c r =
      ({ (x.perform .plain c r).1 with
          outcome := (x.perform .plain c r).1.outcome >>= fun _ => Answer.ofReply (.all v) r },
        (x.perform .plain c r).2) := by
  have exchange : Request.plain.exchange = (Request.all v).exchange := rfl
  have unchecked : (Request.all v).checkFirst = .ok () ∧ Request.plain.checkFirst = .ok () :=
    ⟨rfl, rfl⟩
  simp only [perform, exchange, unchecked]
  cases c.paramCount with
  | error e => rfl
  | ok count =>
      cases Compiled.bindParameters c.parameters with
      | error e => rfl
      | ok parameters =>
          cases ran : (Request.all v).exchange.run x.handle c.sql parameters r with
          | mk events fault =>
              cases fault with
              | some e =>
                  simp only [ran, performFailed]
                  cases e.isDatabaseError <;> rfl
              | none =>
                  simp only [ran, performDone, plain_answer]
                  cases Answer.ofReply (.all v) r <;> rfl

theorem run_all (replies : List Reply) :
    (x.run (.all v) c replies).events = (x.run .plain c replies).events ∧
      (x.run (.all v) c replies).records = (x.run .plain c replies).records ∧
      (x.run (.all v) c replies).rest = (x.run .plain c replies).rest ∧
      (x.run (.all v) c replies).outcome = (x.run .plain c replies).outcome >>= fun _ =>
        Answer.ofReply (.all v) (Reply.next replies).1 := by
  have found : x.found (.all v) c = x.found .plain c := rfl
  rw [x.run_outcome, x.run_outcome]
  simp only [run, perform_all x c v, found, and_self]

/-- A request that gets its rows has executed its text. -/
theorem execs_of_answer {q : Request} {replies : List Reply} {a : Answer}
    (answered : (x.run q c replies).outcome = .ok a) :
    ∃ parameters, Event.execs (x.run q c replies).events = [.exec c.sql parameters] := by
  rw [x.run_outcome] at answered
  obtain ⟨parameters, events, honest⟩ | ⟨-, failed⟩ := x.perform_exchange q c (Reply.next replies).1
  · have quiet := honest (by rw [answered]; rfl)
    refine ⟨parameters, ?_⟩
    calc Event.execs (x.run q c replies).events
        = Event.execs (x.perform q c (Reply.next replies).1).1.events := rfl
      _ = [.exec c.sql parameters] := by
        rw [events, Exchange.run_execs_eq, Exchange.reaches_of_completed quiet]
        rfl
  · rw [answered] at failed
    cases failed

/-- A request for one row takes every style but that of groups. -/
theorem checkFirst_single {style : FetchStyle} (single : style ≠ .group) :
    (Request.first (.text style.text)).checkFirst = .ok () := by
  cases style with
  | group => exact absurd rfl single
  | _ => rfl

/-- When a style is refused. A request for one row refuses what is no style, and the style of
groups, before it asks for anything, and lets every other style through. A request for all rows asks
the same of the database, and leaves the same, as one with a proper style. It fails as that one
does, where that one fails; where that one has its rows, the text has been executed, and only then
is what is no style refused. -/
theorem styles_and_the_database (x : Executor) (c : Compiled) (v : Value) (replies : List Reply) :
    (¬ Rows.IsStyle v → x.StoppedBy c (.first v) (Rows.noStyle v) replies) ∧
      (v = .text FetchStyle.group.text →
        x.StoppedBy c (.first v) Refusal.groupNeedsRows.toError replies) ∧
      (∀ style : FetchStyle, style ≠ .group → v = .text style.text →
        (Request.first v).checkFirst = .ok ()) ∧
      (x.run (.all v) c replies).events = (x.run .plain c replies).events ∧
      (x.run (.all v) c replies).records = (x.run .plain c replies).records ∧
      (x.run (.all v) c replies).rest = (x.run .plain c replies).rest ∧
      (∀ e, (x.run .plain c replies).outcome = .error e →
        (x.run (.all v) c replies).outcome = .error e) ∧
      ∀ rows, (x.run .plain c replies).outcome = .ok rows →
        (∃ parameters,
          Event.execs (x.run (.all v) c replies).events = [.exec c.sql parameters]) ∧
        (¬ Rows.IsStyle v →
          (x.run (.all v) c replies).outcome = .error (Rows.noStyle v)) := by
  obtain ⟨events, records, rest, outcome⟩ := x.run_all c v replies
  refine ⟨fun other => x.stoppedBy_of_check c ?_ replies, ?_,
    fun style single named => named ▸ checkFirst_single single, events, records, rest, ?_, ?_⟩
  · simp only [Request.checkFirst, Rows.readStyle_other other, bind, Except.bind]
  · rintro rfl
    exact x.stoppedBy_of_check c rfl replies
  · intro e failed
    rw [outcome, failed]
    rfl
  · intro rows answered
    refine ⟨events ▸ x.execs_of_answer c answered, fun other => ?_⟩
    rw [outcome, answered]
    simp only [Answer.ofReply, Rows.readStyle_other other, bind, Except.bind]

theorem styles_and_the_database_of_delete :
    ¬ Rows.IsStyle (.text "bad") ∧
      StoppedBy ⟨.engine, .none⟩ ⟨"DELETE FROM t", .none, none, none⟩ (.first (.text "bad"))
        (Rows.noStyle (.text "bad")) [] ∧
      StoppedBy ⟨.engine, .none⟩ ⟨"DELETE FROM t", .none, none, none⟩ (.first (.text "group"))
        Refusal.groupNeedsRows.toError [] ∧
      (run ⟨.engine, .none⟩ (.all (.text "bad")) ⟨"DELETE FROM t", .none, none, none⟩
        []).outcome = .error (Rows.noStyle (.text "bad")) ∧
      ∃ parameters, Event.execs (run ⟨.engine, .none⟩ (.all (.text "bad"))
        ⟨"DELETE FROM t", .none, none, none⟩ []).events = [.exec "DELETE FROM t" parameters] := by
  have other : ¬ Rows.IsStyle (.text "bad") := by
    rintro ⟨style, same⟩
    cases style <;> simp [FetchStyle.text] at same
  obtain ⟨stopped, -, -, -, -, -, -, executed⟩ := styles_and_the_database ⟨.engine, .none⟩
    ⟨"DELETE FROM t", .none, none, none⟩ (.text "bad") []
  obtain ⟨-, grouped, -⟩ := styles_and_the_database ⟨.engine, .none⟩
    ⟨"DELETE FROM t", .none, none, none⟩ (.text "group") []
  obtain ⟨once, refused⟩ := executed (.value (.list [])) rfl
  exact ⟨other, stopped other, grouped rfl, refused other, once⟩

/-- A deletion is carried out although the style that is given with it is refused. -/
theorem deletion_with_a_refused_style :
    let run := run ⟨.engine, .none⟩ (.all (.text "bad")) ⟨"DELETE FROM t", .none, none, none⟩ []
    run.outcome = .error (.raised (.valueError "'bad' is not a valid FetchStyle")) ∧
      run.events = [.connect, .exec "DELETE FROM t" .none, .release] :=
  ⟨rfl, rfl⟩

end Executor
end FluentSql
