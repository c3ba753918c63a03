import Mathlib.Data.List.Nodup
import Mathlib.Data.List.Perm.Subperm
import Std.Data.String.ToNat
import FluentSql.Compile.Placeholder

/-!
Generated names. The search for a free number passes over taken numbers only, and it ends at a free
one because a list of taken names rules out no more numbers than it is long.
-/

namespace FluentSql.Collector

theorem numberedName_inj {m n : Nat} : numberedName m = numberedName n ↔ m = n := by
  constructor
  · intro h
    have texts : toString m = toString n := by
      simpa only [numberedName, String.append_right_inj] using h
    exact Nat.repr_injective texts
  · rintro rfl
    rfl

/-- A generated name begins with a letter, so no colon is taken off it. -/
theorem toList_numberedName (n : Nat) :
    (numberedName n).toList = 'p' :: (toString n).toList := by
  simp [numberedName]

variable (taken : List String)

/-- Every number that the search passes over is taken. -/
theorem mem_of_lt_firstFree {fuel n i : Nat} (hn : n ≤ i) (hi : i < firstFree taken fuel n) :
    numberedName i ∈ taken := by
  induction fuel generalizing n with
  | zero => exact absurd hi (Nat.not_lt.mpr hn)
  | succ fuel ih =>
      simp only [firstFree] at hi
      split at hi
      · next h =>
          obtain rfl | hlt := Nat.eq_or_lt_of_le hn
          · exact List.contains_iff_mem.mp h
          · exact ih hlt hi
      · exact absurd hi (Nat.not_lt.mpr hn)

theorem firstFree_of_free {n : Nat} (free : numberedName n ∉ taken) (fuel : Nat) :
    firstFree taken fuel n = n := by
  cases fuel with
  | zero => rfl
  | succ fuel => rw [firstFree, if_neg fun h => free (List.contains_iff_mem.mp h)]

/-- The search stops at a free number, or when it has used its fuel. -/
theorem firstFree_not_mem_or (fuel n : Nat) :
    numberedName (firstFree taken fuel n) ∉ taken ∨ firstFree taken fuel n = n + fuel := by
  induction fuel generalizing n with
  | zero => exact .inr rfl
  | succ fuel ih =>
      simp only [firstFree]
      split
      · obtain free | used := ih (n + 1)
        · exact .inl free
        · exact .inr (by omega)
      · next h => exact .inl fun hmem => h (List.contains_iff_mem.mpr hmem)

/-- As many numbers as there are taken names, and one more, cannot all be taken. -/
theorem exists_free (n : Nat) : ∃ i, n ≤ i ∧ i ≤ n + taken.length ∧ numberedName i ∉ taken := by
  by_contra h
  push Not at h
  let names := (List.range' n (taken.length + 1)).map numberedName
  have distinct : names.Nodup :=
    List.Nodup.map (fun _ _ => numberedName_inj.mp) List.nodup_range'
  have among : names ⊆ taken := by
    intro name hname
    obtain ⟨i, hi, rfl⟩ := List.mem_map.mp hname
    rw [List.mem_range'_1] at hi
    exact h i hi.1 (by omega)
  have short := (List.subperm_of_subset distinct among).length_le
  simp only [names, List.length_map, List.length_range'] at short
  omega

theorem firstFree_not_mem (n : Nat) :
    numberedName (firstFree taken taken.length n) ∉ taken := by
  obtain free | used := firstFree_not_mem_or taken taken.length n
  · exact free
  · intro hmem
    obtain ⟨i, hn, hi, free⟩ := exists_free taken n
    obtain rfl | hlt := Nat.eq_or_lt_of_le hi
    · exact free (used ▸ hmem)
    · exact free (mem_of_lt_firstFree taken hn (used ▸ hlt))

variable (reserved : List String) (c : Collector)

theorem nextNumber_not_reserved : numberedName (c.nextNumber reserved) ∉ reserved := fun h =>
  firstFree_not_mem _ _ (List.mem_append_left _ h)

theorem nextNumber_not_collected :
    numberedName (c.nextNumber reserved) ∉ Fields.keys c.named := fun h =>
  firstFree_not_mem _ _ (List.mem_append_right _ h)

end FluentSql.Collector
