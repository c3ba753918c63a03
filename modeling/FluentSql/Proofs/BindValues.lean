import FluentSql.Proofs.AlikePieces

/-!
The text of a compiled statement does not depend on the values it binds. The writer cannot tell
pieces apart that differ in bind values only: its collectors hold as many values under the same
names, so it writes the same text or stops at the same error.
-/

namespace FluentSql

/-- The same container: nothing, a list of the same length, or a map with the same keys in order. -/
def Value.SameContainer : Value → Value → Prop
  | .none, .none => True
  | .list xs, .list ys => xs.length = ys.length
  | .map es, .map fs => es.map (·.1) = fs.map (·.1)
  | _, _ => False

/-- The same text, operation and table, with parameters in the same container. -/
structure Compiled.Alike (c d : Compiled) : Prop where
  sql : c.sql = d.sql
  operation : c.operation = d.operation
  table : c.table = d.table
  parameters : c.parameters.SameContainer d.parameters

/-- Collectors that hold the same number of values under the same names. -/
structure Collector.Alike (c d : Collector) : Prop where
  counter : c.counter = d.counter
  positional : c.positional.length = d.positional.length
  named : Fields.keys c.named = Fields.keys d.named

namespace Collector

variable {c d : Collector}

theorem nextNumber_alike (reserved : List String) (h : c.Alike d) :
    c.nextNumber reserved = d.nextNumber reserved := by
  simp only [nextNumber, h.named, h.counter]

theorem bind_alike (style : Style) (reserved : List String) (v w : Value) (h : c.Alike d) :
    (c.bind style reserved v).1 = (d.bind style reserved w).1 ∧
      (c.bind style reserved v).2.Alike (d.bind style reserved w).2 := by
  have named (n : Nat) : Fields.keys (c.named ++ [(numberedName n, v)]) =
      Fields.keys (d.named ++ [(numberedName n, w)]) := by
    have keys : c.named.map (·.1) = d.named.map (·.1) := h.named
    simp only [Fields.keys, List.map_append, keys, List.map_cons, List.map_nil]
  cases style with
  | qmark | format => exact ⟨rfl, h.counter, by simp [bind, h.positional], h.named⟩
  | named | pyformat =>
      simp only [bind, nextNumber_alike reserved h]
      exact ⟨trivial, rfl, h.positional, named _⟩

theorem addNamed_alike (clause : FragmentClause) {es fs : List (String × Value)}
    (hkeys : Fields.keys es = Fields.keys fs) (h : c.Alike d) :
    Agree Alike (addNamed clause es c) (addNamed clause fs d) := by
  induction es generalizing fs c d with
  | nil =>
      cases fs with
      | nil => exact Agree.ok h
      | cons f fs => simp [Fields.keys] at hkeys
  | cons e es ih =>
      cases fs with
      | nil => simp [Fields.keys] at hkeys
      | cons f fs =>
          obtain ⟨key, v⟩ := e
          obtain ⟨key', w⟩ := f
          simp only [Fields.keys, List.map_cons, List.cons.injEq] at hkeys
          obtain ⟨rfl, hrest⟩ := hkeys
          simp only [addNamed, h.named]
          cases paramName clause key with
          | error e => exact Agree.error e
          | ok name =>
              dsimp only
              split
              · exact Agree.error _
              · refine ih hrest ⟨h.counter, h.positional, ?_⟩
                have keys : c.named.map (·.1) = d.named.map (·.1) := h.named
                simp only [Fields.keys, List.map_append, keys, List.map_cons, List.map_nil]

theorem extend_alike (style : Style) (clause : FragmentClause) {p q : Option FragmentParams}
    (hp : FragmentParams.AlikeOption p q) (h : c.Alike d) :
    Agree Alike (c.extend style clause p) (d.extend style clause q) := by
  cases hp with
  | none => exact Agree.ok h
  | @some p q hpq =>
      simp only [extend, FragmentParams.isEmpty_alike hpq]
      split
      · exact Agree.ok h
      · match p, q, hpq, style.isNamed with
        | .list xs, .list ys, _, true => exact Agree.error _
        | .list xs, .list ys, lengths, false =>
            have lengths : xs.length = ys.length := lengths
            exact Agree.ok ⟨h.counter, by simp [h.positional, lengths], h.named⟩
        | .map es, .map fs, keys, true => exact addNamed_alike clause keys h
        | .map es, .map fs, _, false => exact Agree.error _

end Collector
namespace Compiler

variable {k : Compiler} {c d : Collector}

/-- The same text so far, and alike collectors. -/
abbrev SameText (a b : String × Collector) : Prop := a.1 = b.1 ∧ a.2.Alike b.2

theorem writePiece_alike (reserved : List String) {p q : Piece} (hp : p.Alike q)
    (h : c.Alike d) :
    Agree SameText (k.writePiece reserved c p) (k.writePiece reserved d q) := by
  cases hp with
  | text s | name s => exact Agree.ok ⟨rfl, h⟩
  | bound v w => exact Agree.ok (Collector.bind_alike k.style reserved v w h)
  | fragment clause sql hparams =>
      exact (Collector.extend_alike k.style clause hparams h).bind fun _ _ hcd => ⟨rfl, hcd⟩
  | halt e => exact Agree.error e

theorem writeFrom_alike (reserved : List String) {ps qs : List Piece} (hps : Piece.AlikeAll ps qs)
    (h : c.Alike d) :
    Agree SameText (k.writeFrom reserved c ps) (k.writeFrom reserved d qs) := by
  induction hps generalizing c d with
  | nil => exact Agree.ok ⟨rfl, h⟩
  | cons hp _ ih =>
      refine (writePiece_alike reserved hp h).bind fun a b hab => ?_
      refine (ih hab.2).bind fun a' b' hab' => ?_
      exact ⟨by rw [hab.1, hab'.1], hab'.2⟩

theorem parameters_alike (style : Style) (h : c.Alike d) :
    (c.parameters style).SameContainer (d.parameters style) := by
  have keys : c.named.map (·.1) = d.named.map (·.1) := h.named
  cases style with
  | qmark | format => exact h.positional
  | named | pyformat =>
      have texts (named : List (String × Value)) :
          (named.map fun entry => (Value.text entry.1, entry.2)).map (·.1) =
            (named.map (·.1)).map Value.text := by
        simp only [List.map_map, Function.comp_def]
      change _ = _
      rw [texts, texts, keys]

theorem write_alike (reserved : List String) {ps qs : List Piece} (hps : Piece.AlikeAll ps qs) :
    Agree (fun a b => a.1 = b.1 ∧ a.2.SameContainer b.2)
      (k.write reserved ps) (k.write reserved qs) := by
  refine (writeFrom_alike reserved hps ⟨rfl, rfl, rfl⟩).bind fun a b hab => ?_
  exact ⟨hab.1, parameters_alike k.style hab.2⟩

variable {s t : Statement}

theorem compileRaw_alike (sql : String) (h : s.Alike t) :
    (compileRaw s sql).Alike (compileRaw t sql) := by
  refine ⟨rfl, rfl, rfl, ?_⟩
  have params := h.rawParams
  change (Params.optionToValue s.rawParams).SameContainer (Params.optionToValue t.rawParams)
  match s.rawParams, t.rawParams, params with
  | none, none, _ => trivial
  | some (.list _), some (.list _), .some lengths => exact lengths
  | some (.map _), some (.map _), .some keys => exact keys

theorem compile_alike (h : s.Alike t) :
    Agree Compiled.Alike (k.compile s) (k.compile t) := by
  simp only [compile, h.rawSql, h.operation]
  cases t.rawSql with
  | some sql => exact Agree.ok (compileRaw_alike sql h)
  | none =>
      cases t.operation with
      | none => exact Agree.error _
      | some operation =>
          simp only [Statement.requireTable_alike h, Statement.reservedNames_alike h, h.table]
          refine (Agree.same _).bind fun _ _ _ => ?_
          refine (Statement.piecesFor_alike k operation h).bind fun ps qs hps => ?_
          refine (write_alike _ hps).bind fun a b hab => ?_
          exact ⟨hab.1, rfl, rfl, hab.2⟩

theorem compileCount_alike (h : s.Alike t) :
    Agree Compiled.Alike (k.compileCount s) (k.compileCount t) := by
  unfold compileCount Statement.isRaw
  rw [h.rawSql, h.operation, h.table, Statement.requireTable_alike h,
    Statement.reservedNames_alike h]
  split
  · exact Agree.error _
  · cases t.operation.filter (· ≠ .select) with
    | some operation => exact Agree.error _
    | none =>
        refine (Agree.same _).bind fun _ _ _ => ?_
        refine (write_alike _ (Statement.countPieces_alike k h)).bind fun a b hab => ?_
        exact ⟨hab.1, rfl, rfl, hab.2⟩

/-- Changing bind values changes neither the outcome of a compilation nor its text, and leaves the
container of the parameters as it is. -/
theorem text_independent_of_values (k : Compiler) {s t : Statement} (h : s.Alike t) :
    Agree Compiled.Alike (k.compile s) (k.compile t) ∧
      Agree Compiled.Alike (k.compileCount s) (k.compileCount t) :=
  ⟨compile_alike h, compileCount_alike h⟩

/-- An UPDATE that binds in its assignments, in a list, in a fragment and in a test for presence. -/
def updateOf (name : Value) (ages : List Value) (low gone : Value) : Statement where
  operation := some .update
  table := some "users"
  values := [("name", name)]
  predicates := [.leaf "age" .among (.list ages) .and,
    .group [.raw "id > :low" (some (.map [("low", low)])) .and,
      .leaf "gone" .isNot (.one gone) .or] .or]

/-- Two updates of one shape whose values differ in kind, length and content. -/
theorem text_independent_of_values_of_update :
    (updateOf (.text "'; --") [.int 1, .none] (.int 5) (.bool true)).Alike
        (updateOf (.list []) [.text "1", .text "2"] .none (.int 0)) ∧
      Agree Compiled.Alike
        (compile { style := .named }
          (updateOf (.text "'; --") [.int 1, .none] (.int 5) (.bool true)))
        (compile { style := .named }
          (updateOf (.list []) [.text "1", .text "2"] .none (.int 0))) ∧
      (compile { style := .named }
          (updateOf (.list []) [.text "1", .text "2"] .none (.int 0))).toOption.map (·.sql) =
        some ("UPDATE users SET name = :p1 WHERE age IN (:p2, :p3) OR " ++
          "(id > :low OR gone IS NOT :p4)") := by
  have alike : (updateOf (.text "'; --") [.int 1, .none] (.int 5) (.bool true)).Alike
      (updateOf (.list []) [.text "1", .text "2"] .none (.int 0)) := by
    constructor <;> simp [updateOf, Node.AlikeAll, Node.Alike, Operand.Alike,
      FragmentParams.Alike, Fields.keys, Value.isNone]
  exact ⟨alike, (text_independent_of_values _ alike).1, by decide +kernel⟩

end Compiler
end FluentSql
