import FluentSql.Builder.Terminal

/-!
Builders. A builder collects one statement through chained calls and is used up by its first
terminal call, whatever comes of it. Once it is used up it refuses every call; only its statement
can still be looked at.
-/

namespace FluentSql

structure Builder where
  statement : Statement := {}
  consumed : Bool := false
deriving BEq, Repr, Inhabited

namespace Builder

/-- A chained call: the builder it leaves, and the complaint if it is refused. -/
def chain (b : Builder) (c : Call) : Builder × Option Error :=
  if b.consumed then (b, some Refusal.consumed.toError)
  else
    let (s, fault) := c.apply b.statement
    ({ b with statement := s }, fault)

/-- The statement as it is compiled without a terminal call: a SELECT unless it is something else.
-/
def previewed (s : Statement) : Statement :=
  if s.isRaw || s.operation.isSome then s else { s with operation := some .select }

/-- Compiles without using the builder up. -/
def preview (k : Compiler) (b : Builder) : Except Error (Compiled × List Log.Record) :=
  if b.consumed then refuse .consumed
  else do
    let s := previewed b.statement
    let c ← k.compile s
    .ok (c, if s.isRaw then [] else [c.record])

/-- A terminal call: the builder it leaves, and its order or the complaint if it is refused. -/
def finish (k : Compiler) (b : Builder) (t : Terminal) : Builder × Except Error Order :=
  if b.consumed then (b, refuse .consumed)
  else
    let (s, order) := t.finish k b.statement
    (⟨s, true⟩, order)

end Builder
end FluentSql
