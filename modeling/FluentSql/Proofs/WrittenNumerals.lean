import Mathlib.Data.List.DropRight
import FluentSql.Proofs.JsonGrammar
import FluentSql.Json.Writer

/-!
The texts of numbers follow the grammar of JSON. A whole number has no zero in front; the text of a
finite floating-point number has digits on either side of its point and in its exponent. The
shortest digits of a number that is not zero are not zero themselves, so no zeros are put behind a
lone zero.
-/

namespace FluentSql.Json

theorem all_isDigit_toDigits (n : Nat) : (Nat.toDigits 10 n).all Char.isDigit = true :=
  List.all_eq_true.mpr fun _ h => Nat.isDigit_of_mem_toDigits (by decide) (by decide) h

/-- The digits of a number that is not zero start with no zero. -/
theorem toDigits_head {n : Nat} (h : n ≠ 0) :
    ∃ c rest, Nat.toDigits 10 n = c :: rest ∧ c ≠ '0' := by
  induction n using Nat.strong_induction_on with
  | _ n ih =>
      by_cases small : n < 10
      · have zero : ∀ d < 10, d.digitChar = '0' → d = 0 := by decide
        exact ⟨n.digitChar, [], Nat.toDigits_of_lt_base small, fun same => h (zero n small same)⟩
      · obtain ⟨c, rest, digits, nonzero⟩ := ih (n / 10) (by omega) (by omega)
        refine ⟨c, rest ++ [(n % 10).digitChar], ?_, nonzero⟩
        rw [Nat.toDigits_of_base_le (by decide) (by omega), digits, List.cons_append]

theorem whole_toDigits (n : Nat) : Whole (Nat.toDigits 10 n) := by
  by_cases h : n = 0
  · subst h
    exact .zero
  · have digits := all_isDigit_toDigits n
    obtain ⟨c, rest, shown, nonzero⟩ := toDigits_head h
    rw [shown] at digits ⊢
    obtain ⟨first, rest⟩ := Bool.and_eq_true_iff.mp digits
    exact .digits first nonzero rest

theorem numeral_int (n : Int) : Numeral (toString n).toList := by
  have whole (minus : List Char) (signed : minus = [] ∨ minus = ['-']) (n : Nat) :
      Numeral (minus ++ n.repr.toList) := by
    have numeral := Numeral.mk signed (whole_toDigits n) .absent .absent
    rwa [List.append_nil, List.append_nil, ← Nat.toList_repr] at numeral
  rw [Int.toString_eq_repr, Int.repr_eq_if]
  split
  · exact whole [] (.inl rfl) _
  · rw [String.toList_append]
    exact whole ['-'] (.inr rfl) _

end FluentSql.Json

namespace FluentSql.Binary64

open Json

/-- Digits that read back as a number that is not zero are not zero. -/
theorem digits_of_candidate {negative : Bool} {m : Nat} {e : Int} (hm : m ≠ 0) {num den k : Nat}
    {digits : Nat} {place : Int}
    (h : candidate? (.finite negative m e) negative num den k = some (digits, place)) :
    digits ≠ 0 := by
  have chosen {a b : Bool} {x y found : Nat × Int}
      (h : (if a then some x else if b then some y else none) = some found) :
      a = true ∧ x = found ∨ b = true ∧ y = found := by
    cases a <;> cases b <;> simp_all
  have back : ofDecimal negative digits place = .finite negative m e := by
    obtain ⟨reads, same⟩ | ⟨reads, same⟩ := chosen h <;> cases same <;> exact beq_iff_eq.mp reads
  rintro rfl
  have zero : ofDecimal negative 0 place = .finite negative 0 minExponent := by
    simp [ofDecimal, ofRatio]
  rw [zero] at back
  injection back with _ same
  exact hm same.symm

/-- The shortest digits are not zero, or there is nothing behind them. -/
theorem digits_of_shortest (negative : Bool) {m : Nat} (hm : m ≠ 0) (e : Int) :
    (shortest negative m e).1 ≠ 0 ∨ (shortest negative m e).2 = 0 := by
  simp only [shortest, if_neg hm]
  split
  · next found hfound =>
      obtain ⟨k, -, candidate⟩ := List.exists_of_findSome?_eq_some hfound
      exact .inl (digits_of_candidate hm candidate)
  · exact .inr rfl

/-- Digits without the zeros at their end: they start with no zero, unless there is but one digit.
-/
inductive Kept : List Char → Int → Prop
  | zero : Kept ['0'] 1
  | digits {c : Char} {ds : List Char} (first : c.isDigit = true) (nonzero : c ≠ '0')
      (rest : ds.all Char.isDigit = true) (place : Int) : Kept (c :: ds) place

theorem kept_of_significand {digits : Nat} {exponent : Int} (h : digits ≠ 0 ∨ exponent = 0) :
    Kept (significand digits exponent).1 (significand digits exponent).2 := by
  by_cases zero : digits = 0
  · subst zero
    obtain h | rfl := h
    · exact absurd rfl h
    · exact .zero
  · obtain ⟨c, rest, shown, nonzero⟩ := toDigits_head zero
    have all := all_isDigit_toDigits digits
    rw [shown] at all
    have kept : ((c :: rest).rdropWhile (· == '0')) <+: c :: rest := List.rdropWhile_prefix _ _
    have present : (c :: rest).rdropWhile (· == '0') ≠ [] := fun none =>
      nonzero (by simpa using List.rdropWhile_eq_nil_iff.mp none c List.mem_cons_self)
    obtain ⟨ds, hds⟩ : ∃ ds, (c :: rest).rdropWhile (· == '0') = c :: ds := by
      cases hk : (c :: rest).rdropWhile (· == '0') with
      | nil => exact absurd hk present
      | cons d ds =>
          rw [hk] at kept
          exact ⟨ds, by rw [(List.cons_prefix_cons.mp kept).1]⟩
    have digitsKept : (c :: ds).all Char.isDigit = true := by
      rw [← hds]
      exact List.all_eq_true.mpr fun d hd => List.all_eq_true.mp all d (kept.subset hd)
    obtain ⟨first, rest⟩ := Bool.and_eq_true_iff.mp digitsKept
    have form : (significand digits exponent).1 = c :: ds := by
      simp only [significand, shown]
      rw [show ((c :: _).reverse.dropWhile (· == '0')).reverse = c :: ds from hds]
      rfl
    rw [form]
    exact .digits first nonzero rest _

theorem exponent_exponentText (e : Int) : Exponent (exponentText e).toList := by
  have digits : ∃ ds, (if (digitText e.natAbs).length < 2 then "0" ++ digitText e.natAbs
      else digitText e.natAbs).toList = ds ∧ ds ≠ [] ∧ ds.all Char.isDigit = true := by
    refine ⟨_, rfl, ?_⟩
    have all := all_isDigit_toDigits e.natAbs
    have present : Nat.toDigits 10 e.natAbs ≠ [] := Nat.toDigits_ne_nil
    split
    · rw [String.toList_append, digitText, String.toList_ofList]
      exact ⟨by simp, by simpa using all⟩
    · rw [digitText, String.toList_ofList]
      exact ⟨present, all⟩
  obtain ⟨ds, shown, present, all⟩ := digits
  simp only [exponentText, String.toList_append, shown]
  split
  · exact show Exponent ('e' :: (['-'] ++ ds)) from
      .digits (.inl rfl) (.inr (.inr rfl)) present all
  · exact show Exponent ('e' :: (['+'] ++ ds)) from
      .digits (.inl rfl) (.inr (.inl rfl)) present all

theorem all_isDigit_zeros (n : Nat) : (List.replicate n '0').all Char.isDigit = true :=
  List.all_eq_true.mpr fun c hc => by rw [List.eq_of_mem_replicate hc]; rfl

theorem numeral_positional {minus kept : List Char} {place : Int}
    (signed : minus = [] ∨ minus = ['-']) (h : Kept kept place) :
    Numeral (minus ++ (positional kept place).toList) := by
  have numeral {whole ds : List Char} (hw : Whole whole) (some : ds ≠ [])
      (all : ds.all Char.isDigit = true) : Numeral (minus ++ (whole ++ '.' :: ds)) := by
    simpa using Numeral.mk signed hw (.digits some all) .absent
  cases h with
  | zero => exact numeral .zero (List.cons_ne_nil _ _) rfl
  | @digits c ds first nonzero rest =>
      have all : (c :: ds).all Char.isDigit = true := by rw [List.all_cons, first, rest]; rfl
      by_cases low : place ≤ 0
      · have text : (positional (c :: ds) place).toList =
            ['0'] ++ '.' :: (List.replicate place.natAbs '0' ++ c :: ds) := by
          simp [positional, low]
        rw [text]
        refine numeral .zero (by simp) ?_
        rw [List.all_append, all_isDigit_zeros, all]
        rfl
      · by_cases short : (c :: ds).length ≤ place.toNat
        · have text : (positional (c :: ds) place).toList =
              c :: (ds ++ List.replicate (place.toNat - (c :: ds).length) '0') ++ '.' :: ['0'] := by
            simp only [positional, if_neg low, if_pos short, String.toList_append,
              String.toList_ofList]
            rfl
          rw [text]
          refine numeral (.digits first nonzero ?_) (List.cons_ne_nil _ _) rfl
          rw [List.all_append, rest, all_isDigit_zeros]
          rfl
        · obtain ⟨n, hn⟩ : ∃ n, place.toNat = n + 1 := ⟨place.toNat - 1, by omega⟩
          rw [hn] at short
          have text : (positional (c :: ds) place).toList =
              c :: ds.take n ++ '.' :: ds.drop n := by
            simp only [positional, if_neg low, hn, if_neg short, String.toList_append,
              String.toList_ofList, List.take_succ_cons, List.drop_succ_cons, List.append_assoc]
            rfl
          have cut : (ds.take n).all Char.isDigit = true ∧ (ds.drop n).all Char.isDigit = true := by
            rw [← Bool.and_eq_true, ← List.all_append, List.take_append_drop, rest]
          rw [text]
          refine numeral (.digits first nonzero cut.1) ?_ cut.2
          rw [ne_eq, List.drop_eq_nil_iff]
          simp only [List.length_cons] at short
          omega

/-- The text of a finite number is a number of JSON. -/
theorem numeral_toText (negative : Bool) (m : Nat) (e : Int) :
    Numeral (toText (.finite negative m e)).toList := by
  obtain ⟨minus, hminus, signed⟩ : ∃ minus : List Char,
      (if negative then "-" else "").toList = minus ∧ (minus = [] ∨ minus = ['-']) := by
    cases negative
    · exact ⟨[], rfl, .inl rfl⟩
    · exact ⟨['-'], rfl, .inr rfl⟩
  by_cases hm : m = 0
  · have text : (toText (.finite negative m e)).toList = minus ++ ['0'] ++ '.' :: ['0'] ++ [] := by
      simp [toText, hm, hminus]
    rw [text]
    exact .mk signed .zero (.digits (List.cons_ne_nil _ _) rfl) .absent
  · have kept := kept_of_significand (digits_of_shortest negative hm e)
    generalize hk : significand (shortest negative m e).1 (shortest negative m e).2 = found at kept
    obtain ⟨ds, place⟩ := found
    by_cases near : -4 < place ∧ place ≤ 16
    · have text : (toText (.finite negative m e)).toList =
          minus ++ (positional ds place).toList := by
        simp [toText, hm, hk, near, hminus]
      rw [text]
      exact numeral_positional signed kept
    · cases kept with
      | zero => exact absurd (by decide) near
      | @digits c ds first nonzero rest =>
          obtain ⟨fraction, hfraction, shown⟩ : ∃ fraction,
              (if (String.ofList ds).isEmpty then "" else "." ++ String.ofList ds).toList =
                fraction ∧ Fraction fraction := by
            cases ds with
            | nil => exact ⟨[], by simp, .absent⟩
            | cons d ds => exact ⟨'.' :: d :: ds, by simp, .digits (List.cons_ne_nil _ _) rest⟩
          have text : (toText (.finite negative m e)).toList =
              minus ++ [c] ++ fraction ++ (exponentText (place - 1)).toList := by
            simp only [toText, if_neg hm, hk, if_neg near, String.toList_append, hminus,
              List.take_succ_cons, List.take_zero, List.drop_succ_cons, List.drop_zero, hfraction,
              String.toList_ofList]
          rw [text]
          exact .mk signed (.digits first nonzero rfl) shown (exponent_exponentText _)

end FluentSql.Binary64
