import Mathlib.Data.List.Forall2
import FluentSql.Executor

/-!
What is seen of an error: in an outcome its code, message and details with the exception behind it,
in a log record and in a span also the text that the exception is written with. That text may show
the values of the statement that the exception speaks of. Errors that differ in these values only,
and are written alike, cannot be told apart by anything that is recorded of them.
-/

namespace FluentSql

/-- The text of an exception that hides the values of its statement depends on them no further than
on whether there are any. -/
def Rendering.Hides (render : Rendering) : Prop :=
  ∀ (e : Raised) (sql : String) {v w : Value}, e.hidesParameters = true → v.truthy = w.truthy →
    render ⟨e, some (sql, v)⟩ = render ⟨e, some (sql, w)⟩

variable (render : Rendering)

/-- The same exception about the same text, written alike. -/
structure Failure.Cause.Alike (a b : Failure.Cause) : Prop where
  raised : a.toRaised = b.toRaised
  statement : a.statement.map (·.1) = b.statement.map (·.1)
  text : render a = render b

structure Failure.Alike (f g : Failure) : Prop where
  code : f.code = g.code
  message : f.message = g.message
  details : f.details = g.details
  cause : Option.Rel (Failure.Cause.Alike render) f.cause g.cause

/-- The same error, or failures that differ in the values of a statement only. -/
inductive Error.ShownAlike : Error → Error → Prop
  | same (e : Error) : ShownAlike e e
  | failure {f g : Failure} (h : f.Alike render g) : ShownAlike (.failure f) (.failure g)

structure Log.Record.Alike (a b : Log.Record) : Prop where
  level : a.level = b.level
  logger : a.logger = b.logger
  message : a.message = b.message
  extra : a.extra = b.extra
  cause : Option.Rel (Failure.Cause.Alike render) a.cause b.cause

/-- Spans of one name and kind with the same attributes, the same recorded exception and the same
status. -/
structure Span.Alike (a b : Span) : Prop where
  name : a.name = b.name
  kind : a.kind = b.kind
  attributes : a.attributes = b.attributes
  exception : a.exception = b.exception
  description : a.description render = b.description render

/-- The same result, or errors that are alike. -/
inductive SameOutcome {α : Type} : Except Error α → Except Error α → Prop
  | ok (a : α) : SameOutcome (.ok a) (.ok a)
  | error {e f : Error} (h : e.ShownAlike render f) : SameOutcome (.error e) (.error f)

variable {render}

theorem Failure.Cause.alike_refl (cause : Option Failure.Cause) :
    Option.Rel (Failure.Cause.Alike render) cause cause := by
  cases cause with
  | none => exact .none
  | some e => exact .some ⟨rfl, rfl, rfl⟩

theorem Log.Record.alike_refl (r : Log.Record) : r.Alike render r :=
  ⟨rfl, rfl, rfl, rfl, Failure.Cause.alike_refl r.cause⟩

theorem Log.Record.alikeAll_refl (records : List Log.Record) :
    List.Forall₂ (Log.Record.Alike render) records records :=
  List.forall₂_same.mpr fun r _ => r.alike_refl

theorem SameOutcome.refl {α : Type} (x : Except Error α) : SameOutcome render x x := by
  cases x with
  | ok a => exact .ok a
  | error e => exact .error (.same e)

namespace Error.ShownAlike

variable {e f : Error} (h : e.ShownAlike render f)

include h

theorem kind : e.kind = f.kind := by
  cases h with
  | same => rfl
  | failure h => exact congrArg Code.name h.code

/-- The text of a failure shows the exception behind it in no other words. -/
theorem text : e.text render = f.text render := by
  cases h with
  | same => rfl
  | @failure f g h =>
      have cause := h.cause
      simp only [Error.text, Failure.text, h.code, h.message]
      generalize f.cause = a, g.cause = b at cause
      cases cause with
      | none => rfl
      | some told => simp only [told.raised, told.text]

theorem records : List.Forall₂ (Log.Record.Alike render) e.records f.records := by
  cases h with
  | same => exact Log.Record.alikeAll_refl _
  | failure h =>
      refine .cons ⟨?_, rfl, h.message, ?_, h.cause⟩ .nil
      · simp only [Failure.record, h.code]
      · simp only [Failure.record, h.code, h.details]

end Error.ShownAlike

namespace SameOutcome

variable {α β : Type} {x y : Except Error α}

theorem map (h : SameOutcome render x y) (f : α → β) : SameOutcome render (x.map f) (y.map f) := by
  cases h with
  | ok a => exact .ok (f a)
  | error h => exact .error h

theorem records (h : SameOutcome render x y) :
    List.Forall₂ (Log.Record.Alike render) (Error.recordsOf x) (Error.recordsOf y) := by
  cases h with
  | ok => exact .nil
  | error h => exact h.records

/-- A span tells what its call ends with, and alike ends in the same way. -/
theorem around (h : SameOutcome render x y) (name kind : String) (found : Trace.Found) :
    SameOutcome render (Trace.around name kind found x).1 (Trace.around name kind found y).1 ∧
      (Trace.around name kind found x).2.Alike render (Trace.around name kind found y).2 := by
  simp only [Trace.around]
  cases found.attributes with
  | error e => exact ⟨.error (.same e), rfl, rfl, rfl, rfl, rfl⟩
  | ok attributes =>
      cases h with
      | ok a => exact ⟨.ok a, rfl, rfl, rfl, rfl, rfl⟩
      | error h =>
          exact ⟨.error h, rfl, rfl, rfl, congrArg some h.kind, congrArg some h.text⟩

end SameOutcome
end FluentSql
