import Mathlib.Algebra.GroupWithZero.Nat
import Mathlib.Data.List.Chain
import FluentSql.Proofs.Layout

/-!
Positional marks in a text. A mark of two characters can arise where two texts meet, so marks are
counted text by text only where one of two neighbours is a fence: a text that neither ends as a mark
begins nor begins as a mark ends. Writing quiet characters for others brings in no mark.
-/

namespace FluentSql

/-- The mark of a positional style. -/
def Style.mark (style : Style) : List Char := (style.placeholder "").toList

namespace Text

/-- At how many places of a text a mark begins. -/
def occurrences (mark : List Char) : List Char → Nat
  | [] => 0
  | c :: rest => (if mark.isPrefixOf (c :: rest) then 1 else 0) + occurrences mark rest

/-- A text that has a character, and makes up no mark with what stands before or after it. -/
structure IsFence (cs : List Char) : Prop where
  ne_nil : cs ≠ []
  head : cs.head? ≠ some 's'
  last : cs.getLast? ≠ some '%'

/-- Characters that no mark has. -/
def isQuiet (c : Char) : Bool := c != '?' && c != '%' && c != 's'

theorem isFence_of_quiet {cs : List Char} (ne : cs ≠ []) (h : cs.all isQuiet = true) :
    IsFence cs := by
  have quiet (c : Char) (hc : c ∈ cs) : c ≠ 's' ∧ c ≠ '%' := by
    have := List.all_eq_true.mp h c hc
    simp only [isQuiet, Bool.and_eq_true, bne_iff_ne, ne_eq] at this
    exact ⟨this.2, this.1.2⟩
  exact ⟨ne, fun head => (quiet _ (List.mem_of_head? head)).1 rfl,
    fun last => (quiet _ (List.mem_of_getLast? last)).2 rfl⟩

theorem head_of_head_flatMap {f : Char → List Char} {cs : List Char}
    (hf : ∀ c, f c = [c] ∨ (f c ≠ [] ∧ (f c).all isQuiet = true))
    (h : (cs.flatMap f).head? = some 's') : cs.head? = some 's' := by
  cases cs with
  | nil => exact h
  | cons c cs =>
      rw [List.flatMap_cons] at h
      obtain same | ⟨ne, quiet⟩ := hf c
      · rw [same] at h
        exact h
      · have fence := isFence_of_quiet ne quiet
        obtain ⟨d, ds, hds⟩ := List.exists_cons_of_ne_nil ne
        rw [hds] at fence h
        exact absurd h fence.head

/-- A part of a text without marks has none. -/
theorem occurrences_infix {mark a b : List Char} (within : a <:+: b)
    (h : occurrences mark b = 0) : occurrences mark a = 0 := by
  induction b generalizing a with
  | nil =>
      rw [List.infix_nil.mp within]
      exact h
  | cons c b ih =>
      obtain ⟨begins, rest⟩ := Nat.add_eq_zero_iff.mp h
      obtain initial | later := List.infix_cons_iff.mp within
      · cases a with
        | nil => rfl
        | cons d a =>
            have same := List.cons_prefix_cons.mp initial
            have shorter : ¬ mark.isPrefixOf (d :: a) = true := fun short => by
              rw [List.isPrefixOf_iff_prefix] at short
              have long := List.isPrefixOf_iff_prefix.mpr (short.trans initial)
              simp only [long, if_true] at begins
              exact Nat.one_ne_zero begins
            simp only [occurrences, shorter, ih same.2.isInfix rest, Bool.false_eq_true, if_false]
      · exact ih later rest

variable {style : Style} (positional : style.isNamed = false)
include positional

theorem mark_eq : style.mark = ['?'] ∨ style.mark = ['%', 's'] := by
  cases style with
  | qmark => exact .inl rfl
  | format => exact .inr rfl
  | named | pyformat => cases positional

theorem isFence_mark : IsFence style.mark := by
  rcases mark_eq positional with h | h <;> rw [h] <;> constructor <;> decide

/-- What follows a text decides whether a mark begins at its head only when the two meet there. -/
theorem isPrefixOf_append {c : Char} {a b : List Char}
    (seam : (c :: a).getLast? ≠ some '%' ∨ b.head? ≠ some 's') :
    style.mark.isPrefixOf (c :: (a ++ b)) = style.mark.isPrefixOf (c :: a) := by
  obtain h | h := mark_eq positional
  · simp only [h, List.isPrefixOf_cons_cons, List.isPrefixOf_nil_left]
  · cases a with
    | cons d a => simp only [h, List.cons_append, List.isPrefixOf_cons_cons,
        List.isPrefixOf_nil_left]
    | nil =>
        cases b with
        | nil => rfl
        | cons d b =>
            simp only [List.getLast?_singleton, List.head?_cons, ne_eq, Option.some.injEq] at seam
            simp only [h, List.nil_append, List.isPrefixOf_cons_cons, List.isPrefixOf_nil_left,
              List.isPrefixOf_cons_nil, Bool.and_true, Bool.and_false, Bool.and_eq_false_iff,
              beq_eq_false_iff_ne, ne_eq]
            exact seam.imp (fun hc e => hc e.symm) (fun hd e => hd e.symm)

/-- Marks are counted side by side unless one arises in between. -/
theorem occurrences_append {a b : List Char}
    (seam : a.getLast? ≠ some '%' ∨ b.head? ≠ some 's') :
    occurrences style.mark (a ++ b) = occurrences style.mark a + occurrences style.mark b := by
  induction a with
  | nil => simp only [List.nil_append, occurrences, Nat.zero_add]
  | cons c a ih =>
      have rest : occurrences style.mark (a ++ b) =
          occurrences style.mark a + occurrences style.mark b := by
        cases a with
        | nil => simp only [List.nil_append, occurrences, Nat.zero_add]
        | cons d a => exact ih (by rwa [List.getLast?_cons_cons] at seam)
      rw [List.cons_append, occurrences, isPrefixOf_append positional seam, rest, ← Nat.add_assoc]
      rfl

theorem occurrences_flatten {texts : List (List Char)}
    (spaced : texts.IsChain fun a b => IsFence a ∨ IsFence b) :
    occurrences style.mark texts.flatten = (texts.map (occurrences style.mark)).sum := by
  induction texts with
  | nil => rfl
  | cons a texts ih =>
      cases texts with
      | nil => simp
      | cons b texts =>
          obtain ⟨fence, rest⟩ := List.isChain_cons_cons.mp spaced
          have seam : a.getLast? ≠ some '%' ∨ ((b :: texts).flatten).head? ≠ some 's' := by
            refine fence.imp (fun h => h.last) fun h => ?_
            obtain ⟨c, b, rfl⟩ := List.exists_cons_of_ne_nil h.ne_nil
            exact h.head
          rw [List.flatten_cons, occurrences_append positional seam, ih rest]
          rfl

theorem occurrences_unmarked {cs : List Char} (h : ∀ c ∈ cs, c ≠ '?' ∧ c ≠ '%') :
    occurrences style.mark cs = 0 := by
  induction cs with
  | nil => rfl
  | cons c cs ih =>
      have head := h c (List.mem_cons_self ..)
      have tail := ih fun d hd => h d (List.mem_cons_of_mem c hd)
      have begins : style.mark.isPrefixOf (c :: cs) = false := by
        rcases mark_eq positional with hmark | hmark <;>
          simp [hmark, List.isPrefixOf_cons_cons, head.1.symm, head.2.symm]
      simp only [occurrences, begins, tail]
      rfl

theorem occurrences_quiet {cs : List Char} (h : cs.all isQuiet = true) :
    occurrences style.mark cs = 0 := by
  refine occurrences_unmarked positional fun c hc => ?_
  have := List.all_eq_true.mp h c hc
  simp only [isQuiet, Bool.and_eq_true, bne_iff_ne, ne_eq] at this
  exact this.1

/-- Whether a mark begins at a character depends on what follows through its head only. -/
theorem isPrefixOf_of_head {c : Char} {a b : List Char}
    (head : a.head? = some 's' → b.head? = some 's')
    (h : style.mark.isPrefixOf (c :: a) = true) : style.mark.isPrefixOf (c :: b) = true := by
  rw [List.isPrefixOf_iff_prefix] at h ⊢
  obtain hmark | hmark := mark_eq positional
  · rw [hmark, List.cons_prefix_cons] at h ⊢
    exact ⟨h.1, List.nil_prefix⟩
  · rw [hmark, List.cons_prefix_cons, List.singleton_prefix_iff_head?_eq_some] at h ⊢
    exact ⟨h.1, head h.2⟩

/-- A change of characters that keeps each one or writes quiet ones for it brings in no mark. -/
theorem occurrences_flatMap {f : Char → List Char} {cs : List Char}
    (hf : ∀ c, f c = [c] ∨ (f c ≠ [] ∧ (f c).all isQuiet = true))
    (h : occurrences style.mark cs = 0) : occurrences style.mark (cs.flatMap f) = 0 := by
  induction cs with
  | nil => rfl
  | cons c cs ih =>
      obtain ⟨begins, rest⟩ := Nat.add_eq_zero_iff.mp h
      have tail := ih rest
      rw [List.flatMap_cons]
      obtain kept | ⟨ne, quiet⟩ := hf c
      · have silent : ¬ style.mark.isPrefixOf (c :: cs.flatMap f) = true := by
          intro marked
          have given := isPrefixOf_of_head positional (head_of_head_flatMap hf) marked
          rw [given, if_pos rfl] at begins
          exact Nat.one_ne_zero begins
        rw [kept, List.singleton_append, occurrences, if_neg silent, tail]
      · have fence := isFence_of_quiet ne quiet
        rw [occurrences_append positional (.inl fence.last), occurrences_quiet positional quiet,
          tail]

theorem occurrences_intercalate {separator : List Char} {texts : List (List Char)}
    (fence : IsFence separator) (none : occurrences style.mark separator = 0)
    (h : ∀ text ∈ texts, occurrences style.mark text = 0) :
    occurrences style.mark (separator.intercalate texts) = 0 := by
  induction texts with
  | nil => rfl
  | cons text texts ih =>
      have first := h text (List.mem_cons_self ..)
      have rest := ih fun t ht => h t (List.mem_cons_of_mem text ht)
      cases texts with
      | nil => simpa [List.intercalate] using first
      | cons text' texts =>
          have step : separator.intercalate (text :: text' :: texts) =
              text ++ (separator ++ separator.intercalate (text' :: texts)) := by
            simp [List.intercalate, List.intersperse_cons_cons]
          have head : (separator ++ separator.intercalate (text' :: texts)).head? ≠ some 's' := by
            obtain ⟨c, cs, rfl⟩ := List.exists_cons_of_ne_nil fence.ne_nil
            exact fence.head
          rw [step, occurrences_append positional (.inr head),
            occurrences_append positional (.inl fence.last), first, none, rest]

end Text
end FluentSql
