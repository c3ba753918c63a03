import Mathlib.Data.List.Forall2
import FluentSql.Checked
import FluentSql.Refusal

/-!
Outcomes compared with each other. Two outcomes agree when both are the same error or both are
results that stand in a given relation; steps that agree one by one agree as a whole.
-/

namespace FluentSql

variable {ε α β γ δ : Type}

/-- A sequence of two steps gives a result when both steps do. -/
theorem ok_bind_iff {x : Except ε α} {f : α → Except ε β} {b : β} :
    x >>= f = .ok b ↔ ∃ a, x = .ok a ∧ f a = .ok b := by
  obtain e | a := x
  · exact ⟨nofun, fun ⟨_, h, _⟩ => nomatch h⟩
  · exact ⟨fun h => ⟨a, rfl, h⟩, fun ⟨_, ha, hb⟩ => by cases ha; exact hb⟩

theorem error_bind_iff {x : Except ε α} {f : α → Except ε β} {e : ε} :
    (x >>= f) = .error e ↔ x = .error e ∨ ∃ a, x = .ok a ∧ f a = .error e := by
  cases x with
  | error e' => simp [bind, Except.bind]
  | ok a => simp [bind, Except.bind]

theorem isOk_bind_ok (x : Except ε α) (f : α → β) : (x >>= fun a => .ok (f a)).isOk = x.isOk := by
  cases x <;> rfl

theorem isOk_bind_bind_ok (x : Except ε α) (y : Except ε β) (f : α → β → γ) :
    (x >>= fun a => y >>= fun b => .ok (f a b)).isOk = (x.isOk && y.isOk) := by
  cases x <;> cases y <;> rfl

theorem not_ok {e : ε} : ¬ ∃ a, (.error e : Except ε α) = .ok a := by
  rintro ⟨a, h⟩
  cases h

theorem toOption_some {x : Except ε α} {a : α} : x.toOption = some a ↔ x = .ok a := by
  cases x <;> simp [Except.toOption]

/-- Results that are made one by one are made of one item each. -/
theorem mapM_ok_iff {f : α → Except ε β} {xs : List α} {ys : List β} :
    xs.mapM f = .ok ys ↔ List.Forall₂ (fun x y => f x = .ok y) xs ys := by
  induction xs generalizing ys with
  | nil =>
      rw [List.forall₂_nil_left_iff]
      constructor
      · intro h
        cases h
        rfl
      · rintro rfl
        rfl
  | cons x xs ih =>
      rw [List.mapM_cons, ok_bind_iff, List.forall₂_cons_left_iff]
      constructor
      · rintro ⟨first, hfirst, h⟩
        obtain ⟨rest, hrest, h⟩ := ok_bind_iff.mp h
        cases h
        exact ⟨first, rest, hfirst, ih.mp hrest, rfl⟩
      · rintro ⟨first, rest, hfirst, hrest, rfl⟩
        exact ⟨first, hfirst, ok_bind_iff.mpr ⟨rest, ih.mpr hrest, rfl⟩⟩

/-- What results that are made one by one are is what each of them is. -/
theorem forall_of_mapM {f : α → Except ε β} {P : β → Prop} (hf : ∀ a b, f a = .ok b → P b)
    {xs : List α} {ys : List β} (h : xs.mapM f = .ok ys) : ∀ y ∈ ys, P y := by
  have each := mapM_ok_iff.mp h
  clear h
  induction each with
  | nil => exact List.forall_mem_nil _
  | cons first _ ih => exact List.forall_mem_cons.mpr ⟨hf _ _ first, ih⟩

theorem map_of_mapM {f : α → Except ε β} {g : α → β} (hf : ∀ a b, f a = .ok b → b = g a)
    {xs : List α} {ys : List β} (h : xs.mapM f = .ok ys) : ys = xs.map g := by
  have each := (mapM_ok_iff.mp h).imp fun a b made => (hf a b made).symm
  rw [← List.forall₂_map_left_iff, List.forall₂_eq_eq_eq] at each
  exact each.symm

/-- Both are the same error, or both are results in the relation. -/
def Agree (r : α → β → Prop) : Except ε α → Except ε β → Prop
  | .ok a, .ok b => r a b
  | .error e, .error f => e = f
  | _, _ => False

namespace Agree

variable {r : α → β → Prop} {q : γ → δ → Prop}

theorem ok {a : α} {b : β} (h : r a b) : Agree r (.ok a : Except ε α) (.ok b) := h

theorem error (e : ε) : Agree r (.error e : Except ε α) (.error e) := rfl

theorem same (x : Except ε α) : Agree Eq x x := by
  cases x <;> rfl

theorem cases {x : Except ε α} {y : Except ε β} (h : Agree r x y) :
    (∃ e, x = .error e ∧ y = .error e) ∨ ∃ a b, x = .ok a ∧ y = .ok b ∧ r a b := by
  match x, y, h with
  | .error e, .error _, rfl => exact .inl ⟨e, rfl, rfl⟩
  | .ok a, .ok b, related => exact .inr ⟨a, b, rfl, rfl, related⟩

theorem imp {t : α → β → Prop} {x : Except ε α} {y : Except ε β} (h : Agree r x y)
    (weaker : ∀ a b, r a b → t a b) : Agree t x y := by
  obtain ⟨e, rfl, rfl⟩ | ⟨a, b, rfl, rfl, related⟩ := h.cases
  · exact error e
  · exact weaker a b related

theorem bind {x : Except ε α} {y : Except ε β} {f : α → Except ε γ} {g : β → Except ε δ}
    (h : Agree r x y) (hfg : ∀ a b, r a b → Agree q (f a) (g b)) :
    Agree q (x >>= f) (y >>= g) := by
  obtain ⟨e, rfl, rfl⟩ | ⟨a, b, rfl, rfl, related⟩ := h.cases
  · exact error e
  · exact hfg a b related

end Agree

namespace Checked

variable {α β : Type}

theorem map_ok {f : α → β} {c : Checked α} {b : β} :
    c.map f = .ok b ↔ ∃ a, c = .ok a ∧ f a = b := by
  cases c <;> simp [map]

theorem app_ok {f : Checked (α → β)} {c : Checked α} {b : β} :
    f.app c = .ok b ↔ ∃ g a, f = .ok g ∧ c = .ok a ∧ g a = b := by
  cases f <;> cases c <;> simp [app, map]

theorem andThen_ok {c : Checked α} {f : α → Checked β} {b : β} :
    c.andThen f = .ok b ↔ ∃ a, c = .ok a ∧ f a = .ok b := by
  cases c <;> simp [andThen]

theorem inField_ok {name : String} {c : Checked α} {a : α} :
    c.inField name = .ok a ↔ c = .ok a := by
  cases c <;> simp [inField]

theorem ofExcept_ok {x : Except Error α} {a : α} : ofExcept x = .ok a ↔ x = .ok a := by
  obtain (_ | _ | _) | _ := x <;> simp [ofExcept]

theorem ofOption_ok {x : Option α} {a : α} : ofOption x = .ok a ↔ x = some a := by
  cases x <;> simp [ofOption]

theorem toExcept_ok {c : Checked α} {a : α} : c.toExcept = .ok a ↔ c = .ok a := by
  cases c <;> simp [toExcept]

/-- All items of a checked list passed the check of an item. -/
theorem all_ok {f : β → Checked α} {P : α → Prop} (hf : ∀ b a, f b = .ok a → P a) {bs : List β}
    {as : List α} (h : all f bs = .ok as) : ∀ a ∈ as, P a := by
  induction bs generalizing as with
  | nil =>
      cases h
      exact List.forall_mem_nil _
  | cons b bs ih =>
      obtain ⟨_, rest, hfirst, hrest, rfl⟩ := app_ok.mp h
      obtain ⟨a, ha, rfl⟩ := map_ok.mp hfirst
      exact List.forall_mem_cons.mpr ⟨hf b a ha, ih hrest⟩

end Checked

/-- A field is checked as it was given, or counts as absent. -/
theorem checkField_ok {data : List (String × Value)} {name : String} {absent : Checked α}
    {check : Value → Checked α} {a : α} : checkField data name absent check = .ok a ↔
      (∃ v, Fields.get? name data = some v ∧ check v = .ok a) ∨
        (Fields.get? name data = none ∧ absent = .ok a) := by
  cases found : Fields.get? name data <;> simp [checkField, found, Checked.inField_ok]

/-- What the default is and what passes the check is, a checked field is. -/
theorem checkField_holds {P : α → Prop} {data : List (String × Value)} {name : String}
    {default a : α} {check : Value → Checked α} (hdefault : P default)
    (hcheck : ∀ v a, check v = .ok a → P a)
    (h : checkField data name (.ok default) check = .ok a) : P a := by
  obtain ⟨v, -, checked⟩ | ⟨-, absent⟩ := checkField_ok.mp h
  · exact hcheck v a checked
  · cases absent
    exact hdefault

end FluentSql
