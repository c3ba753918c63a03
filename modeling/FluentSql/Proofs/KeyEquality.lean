import Mathlib.Tactic.Common
import FluentSql.Value.Key

/-!
Equality of keys. A value that may be a key has a canonical form, in which truth values and
floating-point numbers without a fraction are whole numbers. Values that equal themselves are the
same key exactly when their canonical forms are equal, so on these values being the same key is an
equivalence. What does not equal itself is `nan`, and with it every tuple that holds one.
-/

namespace FluentSql

/-- Numbers with a fraction are equal when they are the same, unless they are `nan`. -/
theorem Binary64.equal_iff {x y : Binary64} (hx : x.toInt? = none) (hy : y.toInt? = none) :
    x.equal y = true ↔ x = y ∧ x.equal x = true := by
  have zero (negative : Bool) (e : Int) : (finite negative 0 e).toInt? ≠ none := by
    simp only [toInt?, ratio]
    split <;> simp
  cases x with
  | nan => simp [equal]
  | infinite a => cases y <;> simp [equal]
  | finite a m e =>
      cases y with
      | nan | infinite b => simp [equal]
      | finite b n f =>
          have present : m ≠ 0 := by
            rintro rfl
            exact zero a e hx
          simp [equal, present, and_assoc]

namespace Value

mutual

/-- The form in which values that are the same key are equal. -/
def canonical : Value → Value
  | .bool b => .int (if b then 1 else 0)
  | .float x =>
    match x.toInt? with
    | some n => .int n
    | Option.none => .float x
  | .tuple items => .tuple (canonicalItems items)
  | v => v

def canonicalItems : List Value → List Value
  | [] => []
  | item :: rest => canonical item :: canonicalItems rest

end

/-- What a number is as a number, beside its canonical form. -/
inductive Measured (v : Value) : Prop
  | whole (n : Int) (magnitude : v.magnitude = .whole n) (form : v.canonical = .int n)
  | fraction (x : Binary64) (none : x.toInt? = Option.none) (magnitude : v.magnitude = .fraction x)
      (form : v.canonical = .float x)

def isNumber : Value → Bool
  | .bool _ | .int _ | .float _ => true
  | _ => false

theorem measured_of_isNumber {v : Value} (h : v.isNumber = true) : v.Measured := by
  cases v with
  | bool b => exact .whole _ rfl (by rw [canonical])
  | int n => exact .whole n rfl (by simp [canonical])
  | float x =>
      cases hx : x.toInt? with
      | some n => exact .whole n (by rw [magnitude, hx]) (by rw [canonical, hx])
      | none => exact .fraction x hx (by rw [magnitude, hx]) (by rw [canonical, hx])
  | _ => cases h

theorem isNumber_canonical (v : Value) : v.canonical.isNumber = v.isNumber := by
  cases number : v.isNumber with
  | true =>
      obtain ⟨n, -, form⟩ | ⟨x, -, -, form⟩ := measured_of_isNumber number
      · rw [form]
        rfl
      · rw [form]
        rfl
  | false => cases v <;> simp_all [canonical, isNumber]

theorem sameNumber_iff {v w : Value} (hv : v.isNumber = true) (hw : w.isNumber = true) :
    v.sameNumber w = true ↔ v.canonical = w.canonical ∧ v.sameNumber v = true := by
  obtain ⟨m, hm, fm⟩ | ⟨x, hx, mx, fx⟩ := measured_of_isNumber hv
  · obtain ⟨n, hn, fn⟩ | ⟨y, hy, my, fy⟩ := measured_of_isNumber hw
    · simp [sameNumber, hm, hn, fm, fn]
    · simp [sameNumber, hm, my, fm, fy]
  · obtain ⟨n, hn, fn⟩ | ⟨y, hy, my, fy⟩ := measured_of_isNumber hw
    · simp [sameNumber, mx, hn, fx, fn]
    · simp [sameNumber, mx, my, fx, fy, Binary64.equal_iff hx hy]

theorem sameKey_of_isNumber {v : Value} (h : v.isNumber = true) (w : Value) :
    v.sameKey w = v.sameNumber w := by
  cases v with
  | bool | int | float => cases w <;> rfl
  | _ => cases h

theorem magnitude_of_not_isNumber {v : Value} (h : v.isNumber = false) :
    v.magnitude = .notNumber := by
  cases v with
  | bool | int | float => cases h
  | _ => rfl

section

variable {v w : Value} (numbers : ¬(v.isNumber = true ∧ w.isNumber = true))
  (kinds : v.typeName ≠ w.typeName)

include numbers kinds

/-- Values of different types are different keys, unless both are numbers. -/
theorem sameKey_apart : v.sameKey w = false := by
  cases number : v.isNumber with
  | true =>
      have other : w.isNumber = false := Bool.eq_false_iff.mpr fun both => numbers ⟨number, both⟩
      rw [sameKey_of_isNumber number, sameNumber, magnitude_of_not_isNumber other]
      cases v.magnitude <;> rfl
  | false =>
      cases v <;> cases w <;>
        first
          | rfl
          | exact absurd rfl kinds
          | cases number

theorem canonical_apart : v.canonical ≠ w.canonical := by
  intro same
  have alike : v.isNumber = w.isNumber := by rw [← isNumber_canonical, same, isNumber_canonical]
  cases number : v.isNumber with
  | true => exact numbers ⟨number, alike ▸ number⟩
  | false =>
      cases v <;> cases w <;>
        first
          | exact kinds rfl
          | simp_all [canonical, isNumber]

end

mutual

theorem sameKey_iff_canonical (v w : Value) (hv : v.hashable = true) (hw : w.hashable = true) :
    v.sameKey w = true ↔ v.canonical = w.canonical ∧ v.sameKey v = true := by
  by_cases numbers : v.isNumber = true ∧ w.isNumber = true
  · rw [sameKey_of_isNumber numbers.1, sameKey_of_isNumber numbers.1]
    exact sameNumber_iff numbers.1 numbers.2
  · by_cases kinds : v.typeName ≠ w.typeName
    · simp [sameKey_apart numbers kinds, canonical_apart numbers kinds]
    · cases v with
      | bool | int | float =>
          cases w with
          | bool | int | float => exact absurd ⟨rfl, rfl⟩ numbers
          | _ => simp [typeName] at kinds
      | list | map => simp [hashable] at hv
      | none =>
          cases w with
          | none => exact iff_of_true rfl ⟨rfl, rfl⟩
          | _ => simp [typeName] at kinds
      | missing =>
          cases w with
          | missing => exact iff_of_true rfl ⟨rfl, rfl⟩
          | _ => simp [typeName] at kinds
      | text s =>
          cases w with
          | text t => simp [canonical]
          | _ => simp [typeName] at kinds
      | bytes bs =>
          cases w with
          | bytes cs => simp [canonical]
          | _ => simp [typeName] at kinds
      | tuple items =>
          cases w with
          | tuple others =>
              simp only [hashable] at hv hw
              simpa [canonical] using sameKeys_iff_canonical items others hv hw
          | _ => simp [typeName] at kinds
      | iterator | callback =>
          exact iff_of_false (by cases w <;> exact Bool.false_ne_true)
            fun same => Bool.false_ne_true same.2

theorem sameKeys_iff_canonical (vs ws : List Value) (hv : hashableItems vs = true)
    (hw : hashableItems ws = true) :
    sameKeys vs ws = true ↔ canonicalItems vs = canonicalItems ws ∧ sameKeys vs vs = true := by
  match vs, ws with
  | [], [] => simp [sameKeys, canonicalItems]
  | [], _ :: _ | _ :: _, [] => simp [sameKeys, canonicalItems]
  | v :: vs, w :: ws =>
      obtain ⟨hv, hvs⟩ := Bool.and_eq_true_iff.mp hv
      obtain ⟨hw, hws⟩ := Bool.and_eq_true_iff.mp hw
      have first := sameKey_iff_canonical v w hv hw
      have rest := sameKeys_iff_canonical vs ws hvs hws
      simp only [sameKeys, canonicalItems, Bool.and_eq_true, List.cons.injEq, first, rest]
      tauto

end

/-- A value that may be a key and equals itself. -/
structure IsKey (v : Value) : Prop where
  hashable : v.hashable = true
  self : v.sameKey v = true

instance (v : Value) : Decidable v.IsKey :=
  decidable_of_iff (v.hashable = true ∧ v.sameKey v = true)
    ⟨fun ⟨hashable, self⟩ => ⟨hashable, self⟩, fun h => ⟨h.hashable, h.self⟩⟩

theorem IsKey.sameKey_iff {v w : Value} (hv : v.IsKey) (hw : w.IsKey) :
    v.sameKey w = true ↔ v.canonical = w.canonical := by
  rw [sameKey_iff_canonical v w hv.hashable hw.hashable, and_iff_left hv.self]

theorem IsKey.sameKey_comm {v w : Value} (hv : v.IsKey) (hw : w.IsKey) :
    v.sameKey w = w.sameKey v := by
  rw [Bool.eq_iff_iff, hv.sameKey_iff hw, hw.sameKey_iff hv]
  exact eq_comm

theorem IsKey.sameKey_trans {u v w : Value} (hu : u.IsKey) (hv : v.IsKey) (hw : w.IsKey)
    (first : u.sameKey v = true) (second : v.sameKey w = true) : u.sameKey w = true := by
  rw [hu.sameKey_iff hw, (hu.sameKey_iff hv).mp first, (hv.sameKey_iff hw).mp second]

/-- Whole numbers, truth values and floating-point numbers meet as keys, inside tuples too. -/
example : (tuple [int 1, text "a"] : Value).sameKey (tuple [bool true, text "a"]) = true ∧
    (int 0 : Value).sameKey (float (.finite true 0 (-1074))) = true := by decide +kernel

end Value
end FluentSql
