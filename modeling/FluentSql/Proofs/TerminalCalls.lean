import FluentSql.Proofs.ChainedCalls

/-!
What a terminal call does. It fixes the operation and the values of its statement and may add a
limit; everything else that was collected stays. An order that it gives holds the statement as it
left it, compiled for its own operation.
-/

namespace FluentSql

namespace Terminal

/-- What a terminal call makes of a statement that is not raw; `execute` makes nothing of it. -/
def operation : Terminal → Operation
  | .get _ | .one _ | .count | .dataframe => .select
  | .insert _ => .insert
  | .update _ => .update
  | .delete => .delete
  | .execute => .raw

variable {k : Compiler} {s s' : Statement} {t : Terminal}

/-- The values of a statement after a terminal call: those before it, or values that it read. -/
def Supplies (s : Statement) (values : List (String × Value)) : Prop :=
  values = s.values ∨ ∃ operation given, columnValues operation given = .ok values

/-- At most the operation and the values differ, and an operation that was there stays. -/
def Claims (s s' : Statement) : Prop :=
  ∃ operation values, s' = { s with operation := operation, values := values } ∧
    (∀ current, s.operation = some current → operation = some current) ∧ Supplies s values

theorem claims_self (s : Statement) : Claims s s :=
  ⟨s.operation, s.values, rfl, fun _ h => h, .inl rfl⟩

theorem claims_of_claim {operation : Operation} (h : s.claim operation = .ok s')
    {values : List (String × Value)} (supplied : Supplies s values) :
    Claims s { s' with values := values } := by
  obtain ⟨free, rfl⟩ := Statement.claim_ok.mp h
  exact ⟨some operation, values, rfl, fun _ held => Statement.kept_of_free free held, supplied⟩

theorem supplies_of_claim {operation : Operation} (h : s.claim operation = .ok s') :
    Supplies s s'.values := by
  obtain ⟨-, rfl⟩ := Statement.claim_ok.mp h
  exact .inl rfl

theorem claimWith_claims (operation : Operation) (values : Value) :
    Claims s (claimWith s operation values).1 := by
  cases h : s.claim operation with
  | error e =>
      simp only [claimWith, h]
      exact claims_self s
  | ok claimed =>
      simp only [claimWith, h]
      cases read : columnValues operation values with
      | error e => exact claims_of_claim h (supplies_of_claim h)
      | ok given => exact claims_of_claim h (.inr ⟨operation, values, read⟩)

theorem claimOnly_claims (operation : Operation) : Claims s (claimOnly s operation).1 := by
  cases h : s.claim operation with
  | error e =>
      simp only [claimOnly, h]
      exact claims_self s
  | ok claimed =>
      simp only [claimOnly, h]
      exact claims_of_claim h (supplies_of_claim h)

theorem prepare_claims (t : Terminal) : Claims s (t.prepare s).1 := by
  by_cases raw : s.isRaw = true
  · cases t <;> simp only [prepare, raw, if_true] <;> exact claims_self s
  · cases t with
    | execute =>
        simp only [prepare, raw]
        exact claims_self s
    | insert values | update values =>
        simp only [prepare, raw]
        exact claimWith_claims _ values
    | delete | get | one | count | dataframe =>
        simp only [prepare, raw]
        exact claimOnly_claims _

theorem limited_frame (t : Terminal) :
    ∃ limit, t.limited s = { s with limit := limit } ∧ (s.limit.isSome → limit = s.limit) := by
  cases t with
  | one style =>
      simp only [limited]
      split
      · exact ⟨s.limit, rfl, fun _ => rfl⟩
      · next absent =>
          refine ⟨some 1, rfl, fun held => ?_⟩
          rw [held, Bool.or_true] at absent
          exact absurd rfl absent
  | _ => exact ⟨s.limit, rfl, fun _ => rfl⟩

/-- A terminal call changes the operation, the values and the limit at most, and no operation or
limit that was there; new values are checked ones. -/
theorem finish_frame (k : Compiler) (s : Statement) (t : Terminal) :
    ∃ operation values limit, (t.finish k s).1 =
        { s with operation := operation, values := values, limit := limit } ∧
      (∀ current, s.operation = some current → operation = some current) ∧
      (s.limit.isSome → limit = s.limit) ∧ Supplies s values := by
  obtain ⟨operation, values, prepared, stays, supplied⟩ := t.prepare_claims (s := s)
  obtain ⟨limit, limits, kept⟩ := t.limited_frame (s := (t.prepare s).1)
  -- a call that is refused while it prepares leaves the limit as it is
  have early : ∃ limit, (t.prepare s).1 =
      { s with operation := operation, values := values, limit := limit } ∧
        (s.limit.isSome → limit = s.limit) := ⟨s.limit, prepared, fun _ => rfl⟩
  have late : ∃ limit, t.limited (t.prepare s).1 =
      { s with operation := operation, values := values, limit := limit } ∧
        (s.limit.isSome → limit = s.limit) := by
    rw [prepared] at limits kept ⊢
    exact ⟨limit, limits, kept⟩
  have left : (t.finish k s).1 = (t.prepare s).1 ∨
      (t.finish k s).1 = t.limited (t.prepare s).1 := by
    simp only [finish]
    split
    · next h => exact .inl (congrArg Prod.fst h).symm
    · next h =>
        split
        · exact .inl (congrArg Prod.fst h).symm
        · exact .inr (by rw [h])
  obtain h | h := left
  · obtain ⟨limit, same, kept⟩ := early
    exact ⟨operation, values, limit, h.trans same, stays, kept, supplied⟩
  · obtain ⟨limit, same, kept⟩ := late
    exact ⟨operation, values, limit, h.trans same, stays, kept, supplied⟩

theorem claimWith_ok {operation : Operation} {given : Value}
    (h : claimWith s operation given = (s', none)) :
    ∃ values, columnValues operation given = .ok values ∧
      s' = { s with operation := some operation, values := values } := by
  simp only [claimWith] at h
  split at h
  · cases h
  · next claimed hclaim =>
      obtain ⟨-, rfl⟩ := Statement.claim_ok.mp hclaim
      obtain ⟨values, read, h⟩ := ok_bind_iff.mp (Call.orKeep_accepted.mp h)
      cases h
      exact ⟨values, read, rfl⟩

theorem claimWith_accepted {operation : Operation} {values : Value} (given : s.isRaw = false)
    (h : claimWith s operation values = (s', none)) :
    s'.isRaw = false ∧ s'.operation = some operation := by
  obtain ⟨_, -, rfl⟩ := claimWith_ok h
  exact ⟨given, rfl⟩

theorem claimOnly_accepted {operation : Operation} (given : s.isRaw = false)
    (h : claimOnly s operation = (s', none)) :
    s'.isRaw = false ∧ s'.operation = some operation := by
  obtain ⟨-, rfl⟩ := Statement.claim_ok.mp (Call.orKeep_accepted.mp h)
  exact ⟨given, rfl⟩

theorem prepare_accepted (given : s.isRaw = false) (h : t.prepare s = (s', none)) :
    s'.isRaw = false ∧ s'.operation = some t.operation := by
  cases t with
  | execute => simp [prepare, given] at h
  | insert values | update values =>
      simp only [prepare, given, Bool.false_eq_true, if_false] at h
      exact claimWith_accepted given h
  | delete | get | one | count | dataframe =>
      simp only [prepare, given, Bool.false_eq_true, if_false] at h
      exact claimOnly_accepted given h

/-- An order on a statement that is not raw holds what the statement, as it was left, compiles to.
-/
theorem finish_ok {o : Order} (given : s.isRaw = false) (h : t.finish k s = (s', .ok o)) :
    s'.isRaw = false ∧ s'.operation = some t.operation ∧
      (if t.isCount then k.compileCount s' else k.compile s') = .ok o.compiled := by
  simp only [finish] at h
  split at h
  · cases h
  · next prepared hprepare =>
      obtain ⟨raw, operation⟩ := prepare_accepted given hprepare
      split at h
      · cases h
      · obtain ⟨rfl, horder⟩ := Prod.mk.inj h
        obtain ⟨⟨c, records⟩, hcompile, h⟩ := ok_bind_iff.mp horder
        cases h
        obtain ⟨limit, limits, -⟩ := t.limited_frame (s := prepared)
        have raw' : (t.limited prepared).isRaw = false := by rw [limits]; exact raw
        refine ⟨raw', by rw [limits]; exact operation, ?_⟩
        simp only [compile, raw', Bool.false_eq_true, if_false] at hcompile
        split at hcompile
        · next counts =>
            obtain ⟨_, compiled, h⟩ := ok_bind_iff.mp hcompile
            cases h
            rw [if_pos counts, compiled]
        · next counts =>
            obtain ⟨_, compiled, h⟩ := ok_bind_iff.mp hcompile
            cases h
            rw [if_neg counts, compiled]

/-- A call that takes values and adds no limit leaves its statement with the values that it read. -/
theorem finish_claimWith {operation : Operation} {given : Value} {o : Order}
    (claims : t.prepare s = claimWith s operation given) (unlimited : ∀ s, t.limited s = s)
    (h : t.finish k s = (s', .ok o)) :
    ∃ values, columnValues operation given = .ok values ∧
      s' = { s with operation := some operation, values := values } := by
  simp only [finish] at h
  split at h
  · cases h
  · next prepared hprepare =>
      split at h
      · cases h
      · obtain ⟨rfl, -⟩ := Prod.mk.inj h
        rw [unlimited]
        exact claimWith_ok (claims.symm.trans hprepare)

end Terminal

namespace Builder

variable {b : Builder}

theorem finish_open (given : b.consumed = false) (k : Compiler) (t : Terminal) :
    b.finish k t = (⟨(t.finish k b.statement).1, true⟩, (t.finish k b.statement).2) := by
  simp [finish, given]

theorem finish_consumed (used : b.consumed = true) (k : Compiler) (t : Terminal) :
    b.finish k t = (b, refuse .consumed) := by
  simp [finish, used]

/-- A builder gives an order only while it is open. -/
theorem finish_ok {k : Compiler} {b' : Builder} {t : Terminal} {o : Order}
    (h : b.finish k t = (b', .ok o)) : ∃ s', t.finish k b.statement = (s', .ok o) := by
  cases used : b.consumed with
  | true =>
      rw [finish_consumed used] at h
      cases h
  | false =>
      rw [finish_open used] at h
      exact ⟨_, Prod.ext rfl (Prod.mk.inj h).2⟩

end Builder
end FluentSql
