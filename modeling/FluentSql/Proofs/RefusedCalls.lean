import FluentSql.Proofs.ChainedCalls

/-!
Refused calls. A refused call leaves the builder as it was unless it had already begun its change: a
projection that is the first to say what the statement is for, grouping columns before the refused
one, and text whose parameters are refused.
-/

namespace FluentSql

/-- A refusal of the call comes after a part of its change was made. -/
def Call.Lingers (s : Statement) : Call → Prop
  | .select _ => s.operation = none
  | .groupBy columns => (Call.groupingOf (Call.groupingItems columns)).1 ≠ []
  | .rawSql sql _ => ∃ text, Call.rawText sql = .ok text ∧ s.rawSql ≠ some text
  | _ => False

namespace Call

variable {s : Statement}

theorem residue_eq_iff {c : Call} : c.residue s = s ↔ ¬ c.Lingers s := by
  obtain ⟨operation⟩ := s
  cases c with
  | select columns => cases operation <;> simp [residue, Lingers]
  | groupBy columns => simp [residue, Lingers]
  | rawSql sql params =>
      cases read : rawText sql with
      | error e => simp [residue, Lingers, read]
      | ok text => simp [residue, Lingers, read, eq_comm]
  | _ => simp [residue, Lingers]

end Call

namespace Builder

variable {b b' : Builder} {c : Call} {e : Error}

/-- A refused call neither uses the builder up nor opens it again, and it leaves the residue of the
call. So the builder is as before exactly when the refusal came before any part of the change. -/
theorem refused_call_leaves_residue (refused : b.chain c = (b', some e)) :
    b'.consumed = b.consumed ∧
      (b.consumed = true → b' = b) ∧
      (b.consumed = false → b'.statement = c.residue b.statement) ∧
      (b' = b ↔ b.consumed = true ∨ ¬ c.Lingers b.statement) := by
  by_cases used : b.consumed = true
  · rw [chain_consumed used] at refused
    cases refused
    exact ⟨rfl, fun _ => rfl, fun given => absurd used (by simp [given]), by simp [used]⟩
  · have given : b.consumed = false := by simpa using used
    rw [chain_open given] at refused
    obtain ⟨rfl, hfault⟩ := Prod.mk.inj refused
    have left : (c.apply b.statement).1 = c.residue b.statement :=
      Call.apply_refused (Prod.ext rfl hfault)
    refine ⟨rfl, fun h => absurd h used, fun _ => left, ?_⟩
    rw [left, ← Call.residue_eq_iff]
    obtain ⟨statement, _ | _⟩ := b
    · simp
    · cases given

/-- A builder on a table, without anything else. -/
def onTable : Builder := { statement := { table := some "t" } }

/-- An ordering is read as a whole before it is added. -/
theorem refused_call_leaves_residue_of_ordering :
    let c : Call := .orderBy (.map [(.text "a", .text "ASC"), (.text "1x", .text "ASC")]) .none
    (onTable.chain c).2.isSome = true ∧ (onTable.chain c).1 = onTable := by
  intro c
  have isSome : (onTable.chain c).2.isSome = true := by decide +kernel
  obtain ⟨e, refused⟩ := Option.isSome_iff_exists.mp isSome
  refine ⟨isSome, ?_⟩
  obtain ⟨-, -, -, same⟩ := refused_call_leaves_residue (Prod.ext rfl refused)
  exact same.mpr (.inr id)

/-- A list of grouping columns is added up to its refused column: a call that was refused changed
the builder and the text that it compiles to. -/
theorem refused_grouping_lingers :
    let c : Call := .groupBy [.text "a", .text "1x"]
    let left := (onTable.chain c).1
    onTable.consumed = false ∧
      (onTable.chain c).2.map Error.kind = some "BUILD_INVALID_IDENTIFIER" ∧
      left ≠ onTable ∧
      (onTable.preview {}).toOption.map (·.1.sql) = some "SELECT * FROM t" ∧
      (left.preview {}).toOption.map (·.1.sql) = some "SELECT * FROM t GROUP BY a" := by
  intro c left
  have before : (onTable.preview {}).toOption.map (·.1.sql) = some "SELECT * FROM t" := by
    decide +kernel
  have after : (left.preview {}).toOption.map (·.1.sql) = some "SELECT * FROM t GROUP BY a" := by
    decide +kernel
  refine ⟨rfl, by decide +kernel, fun same => ?_, before, after⟩
  rw [same, before] at after
  exact absurd after (by decide)

end Builder
end FluentSql
