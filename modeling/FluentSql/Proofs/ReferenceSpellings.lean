import FluentSql.Proofs.CanonicalReferences
import FluentSql.Proofs.ChainedCalls
import FluentSql.Proofs.Writing

/-!
The one form of a reference. All spellings of a reference are stored in the same form, nothing else
is stored in it, and what is written for it later shows the name and the alias that were checked.
-/

namespace FluentSql

namespace TableReference

variable {s : String} {reference : String} {t t' : TableReference}

/-- A reference as a compiler writes it. -/
def written (k : Compiler) (t : TableReference) : String :=
  match t.shortName with
  | some other => k.writeName t.name ++ " AS " ++ k.writeName other
  | none => k.writeName t.name

theorem check_text_iff :
    check (.text s) = .ok reference ↔ ∃ t, split (.text s) = .ok t ∧ reference = t.toText := by
  rw [check, ok_bind_iff]
  refine exists_congr fun t => and_congr_right fun _ => ?_
  rw [Except.ok.injEq, eq_comm]

/-- References of one form are one reference. -/
theorem toText_injective {v v' : Value} (h : split v = .ok t) (h' : split v' = .ok t')
    (same : t.toText = t'.toText) : t = t' := by
  have read := split_toText h
  rw [same, split_toText h'] at read
  exact (Except.ok.inj read).symm

theorem writeFrom_tablePieces {v : Value} (h : split v = .ok t) (k : Compiler)
    (reserved : List String) (c : Collector) :
    k.writeFrom reserved c (Statement.tablePieces t.toText) = .ok (t.written k, c) := by
  obtain ⟨name, short⟩ := t
  rw [Statement.tablePieces, split_toText h]
  cases short with
  | none =>
      exact Compiler.writeFrom_cons_ok.mpr ⟨_, _, _, Compiler.writePiece_name name, rfl,
        String.append_empty.symm⟩
  | some other =>
      refine Compiler.writeFrom_cons_ok.mpr ⟨_, _, _, Compiler.writePiece_name name,
        Compiler.writeFrom_cons_ok.mpr ⟨_, _, _, Compiler.writePiece_text " AS ",
          Compiler.writeFrom_cons_ok.mpr ⟨_, _, _, Compiler.writePiece_name other, rfl, rfl⟩, rfl⟩,
        ?_⟩
      rw [String.append_empty]
      exact String.append_assoc

/-- An accepted reference is stored in a form that is accepted as it is and reads back as the same
name and alias. Exactly the spellings of this name and alias are stored in it. A table and a join
that are given the reference keep the form, and the name and the alias are written for it. -/
theorem references_have_one_form (h : check (.text s) = .ok reference) :
    check (.text reference) = .ok reference ∧
      ∃ t, split (.text s) = .ok t ∧ split (.text reference) = .ok t ∧
        (∀ s', t.SpelledBy s'.toList ↔ split (.text s') = .ok t) ∧
        (∀ s', t.SpelledBy s'.toList ↔ check (.text s') = .ok reference) ∧
        (∀ b : Builder, b.consumed = false → b.chain (.table (.text s)) =
          ({ b with statement := { b.statement with table := some reference } }, none)) ∧
        (∀ kind first operator second j,
          Call.joinOf kind (.text s) first operator second = .ok j → j.table = reference) ∧
        (∀ data j, Join.ofFields data = .ok j → Fields.get? "table" data = some (.text s) →
          j.table = reference) ∧
        ∀ (k : Compiler) reserved collected,
          k.writeFrom reserved collected (Statement.tablePieces reference) =
            .ok (t.written k, collected) := by
  have keeps {other : String} (read : check (.text s) = .ok other) : other = reference :=
    Except.ok.inj (read.symm.trans h)
  obtain ⟨t, read, rfl⟩ := check_text_iff.mp h
  have sound := (split_text_iff.mp read).1
  have spelled (s' : String) : t.SpelledBy s'.toList ↔ split (.text s') = .ok t := by
    rw [split_text_iff, and_iff_right sound]
  refine ⟨check_text_iff.mpr ⟨t, split_toText read, rfl⟩, t, read, split_toText read, spelled,
    fun s' => ?_, fun b given => ?_, ?_, ?_, writeFrom_tablePieces read⟩
  · rw [spelled, check_text_iff]
    constructor
    · exact fun found => ⟨t, found, rfl⟩
    · rintro ⟨t', found, same⟩
      rw [found, toText_injective read found same]
  · rw [Builder.chain_open given, Call.apply_accepted.mpr (.table h)]
  · intro kind first operator second j made
    exact keeps (Call.joinOf_table made)
  · intro data j made found
    obtain ⟨v, found', checked⟩ := Join.ofFields_table made
    cases found.symm.trans found'
    exact keeps checked

theorem references_have_one_form_of_alias :
    check (.text " app.users\tu ") = .ok "app.users AS u" ∧
      split (.text "\napp.users \u3000aS u") = .ok ⟨"app.users", some "u"⟩ ∧
      check (.text "\napp.users \u3000aS u") = .ok "app.users AS u" := by
  have h : check (.text " app.users\tu ") = .ok "app.users AS u" :=
    toOption_some.mp (by decide +kernel)
  have other : split (.text "\napp.users \u3000aS u") = .ok ⟨"app.users", some "u"⟩ :=
    toOption_some.mp (by decide +kernel)
  obtain ⟨-, t, read, -, splits, checks, -⟩ := references_have_one_form h
  have same : t = ⟨"app.users", some "u"⟩ :=
    Option.some.inj ((toOption_some.mpr read).symm.trans (by decide +kernel))
  refine ⟨h, other, (checks _).mp ((splits _).mpr ?_)⟩
  rw [same]
  exact other

end TableReference
end FluentSql
