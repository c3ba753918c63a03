import FluentSql.Proofs.WrittenNumerals

/-!
The pieces that the writer of JSON writes: texts from code points, numbers, and what stands between
brackets. All are printable ASCII and follow the grammar. A quoted text denotes its code points, but
for two halves of a character next to each other, which are read as the character.
-/

namespace FluentSql

namespace Json

theorem isHighUnit_toNat (c : Char) : isHighUnit c.toNat = false := by
  obtain small | ⟨above, -⟩ : c.toNat < 0xd800 ∨ 0xdfff < c.toNat ∧ c.toNat < 0x110000 := c.valid
  · simp only [isHighUnit, Bool.and_eq_false_iff, decide_eq_false_iff_not]
    omega
  · simp only [isHighUnit, Bool.and_eq_false_iff, decide_eq_false_iff_not]
    omega

/-- Characters of a string are whole. -/
theorem joined_codesOf (s : String) : joined (codesOf s) = codesOf s := by
  rw [codesOf]
  induction s.toList with
  | nil => rfl
  | cons c cs ih =>
      cases cs with
      | nil => rfl
      | cons d cs =>
          simp only [List.map_cons, joined, isHighUnit_toNat, Bool.false_and] at ih ⊢
          simpa using ih

/-- Joining leaves no code points beneath those of halves but what was there. -/
theorem eq_of_joined_eq {codes plain : List Nat} (h : joined codes = plain)
    (small : ∀ n ∈ plain, n < 0xd800) : codes = plain := by
  fun_induction joined codes generalizing plain with
  | case1 high low rest pair ih =>
      subst h
      have first := (List.forall_mem_cons.mp small).1
      omega
  | case2 high low rest apart ih =>
      subst h
      exact congrArg (high :: ·) (ih rfl (List.forall_mem_cons.mp small).2)
  | case3 units single => exact h

/-- Beyond the first 65536 code points, the two units of a code point are its halves. -/
theorem joined_unitsOf {n : Nat} (low : 0x10000 ≤ n) (high : n < 0x110000) (rest : List Nat) :
    joined (unitsOf n ++ rest) = n :: joined rest := by
  have halves : isHighUnit (0xd800 + (n - 0x10000) / 0x400) = true ∧
      isLowUnit (0xdc00 + (n - 0x10000) % 0x400) = true := by
    simp only [isHighUnit, isLowUnit, Bool.and_eq_true, decide_eq_true_eq]
    omega
  rw [unitsOf, if_neg (by omega)]
  simp only [List.cons_append, List.nil_append, joined, halves, Bool.and_self, if_true,
    List.cons.injEq, and_true]
  omega

/-- The first unit of a code point is the second half of a pair only if the code point is. -/
theorem unitsOf_head {n : Nat} (high : n < 0x110000) :
    ∃ u rest, unitsOf n = u :: rest ∧ (isLowUnit u = true → isLowUnit n = true) := by
  by_cases low : n < 0x10000
  · exact ⟨n, [], if_pos low, id⟩
  · refine ⟨_, _, if_neg low, fun half => ?_⟩
    simp only [isLowUnit, Bool.and_eq_true, decide_eq_true_eq] at half
    omega

/-- Joining the units of code points joins the halves among them. -/
theorem joined_flatMap_unitsOf {codes : List Nat} (h : ∀ n ∈ codes, n < 0x110000) :
    joined (codes.flatMap unitsOf) = joined codes := by
  have small {n : Nat} (hn : n < 0x10000) : unitsOf n = [n] := if_pos hn
  fun_induction joined codes with
  | case1 high low rest pair ih =>
      obtain ⟨-, h⟩ := List.forall_mem_cons.mp h
      obtain ⟨-, h⟩ := List.forall_mem_cons.mp h
      have bounds : high < 0x10000 ∧ low < 0x10000 := by
        simp only [isHighUnit, isLowUnit, Bool.and_eq_true, decide_eq_true_eq] at pair
        omega
      simp [small bounds.1, small bounds.2, joined, pair, ih h]
  | case2 high low rest apart ih =>
      obtain ⟨hhigh, h⟩ := List.forall_mem_cons.mp h
      rw [List.flatMap_cons, ← ih h]
      by_cases one : high < 0x10000
      -- One unit: it stays alone, since the next unit is a second half only if its code point is.
      · obtain ⟨u, more, hu, half⟩ := unitsOf_head (h low List.mem_cons_self)
        have still : ¬(isHighUnit high && isLowUnit u) = true := fun pair =>
          apart (Bool.and_eq_true_iff.mpr
            ⟨(Bool.and_eq_true_iff.mp pair).1, half (Bool.and_eq_true_iff.mp pair).2⟩)
        rw [small one, List.flatMap_cons, hu, List.cons_append, List.cons_append, List.nil_append,
          joined, if_neg still]
      · exact joined_unitsOf (Nat.le_of_not_lt one) hhigh _
  | case3 units single =>
      match units, h with
      | [], _ => rfl
      | [n], h =>
          rw [List.flatMap_singleton]
          by_cases one : n < 0x10000
          · rw [small one, joined]
            simp
          · have same := joined_unitsOf (Nat.le_of_not_lt one) (h n List.mem_cons_self) []
            rwa [List.append_nil] at same
      | high :: low :: rest, _ => exact absurd rfl (single high low rest)

/-- The characters that the writer uses. -/
def isAscii (c : Char) : Bool := 32 ≤ c.toNat && c.toNat ≤ 126

theorem hexDigit_value {n : Nat} (h : n < 16) :
    Text.hexDigitValue? (Text.hexDigit n) = some n ∧ isAscii (Text.hexDigit n) = true := by
  have all : ∀ n < 16, Text.hexDigitValue? (Text.hexDigit n) = some n ∧
      isAscii (Text.hexDigit n) = true := by decide
  exact all n h

/-- A code unit after a backslash is read back. -/
theorem quotes_unitEscape {n : Nat} (h : n < 0x10000) {units : List Nat} {cs : List Char}
    (rest : Quotes units cs) : Quotes (n :: units) (unitEscape n ++ cs) := by
  have value : unit? (Text.hexDigit (n / 16 / 16 / 16 % 16)) (Text.hexDigit (n / 16 / 16 % 16))
      (Text.hexDigit (n / 16 % 16)) (Text.hexDigit (n % 16)) = some n := by
    have digit (m : Nat) := (hexDigit_value (Nat.mod_lt m (by decide : 0 < 16))).1
    simp only [unit?, digit, Option.bind_eq_bind, Option.bind_some, Option.some.injEq]
    omega
  exact .unit value rest

theorem all_isAscii_unitEscape (n : Nat) : (unitEscape n).all isAscii = true := by
  have digit (m : Nat) := (hexDigit_value (Nat.mod_lt m (by decide : 0 < 16))).2
  simp only [unitEscape, Text.hexDigits, List.nil_append, List.cons_append, List.all_cons,
    List.all_nil, digit]
  rfl

theorem unitsOf_lt {n : Nat} (h : n < 0x110000) : ∀ u ∈ unitsOf n, u < 0x10000 := by
  intro u hu
  simp only [unitsOf] at hu
  split at hu
  · simp_all
  · simp only [List.mem_cons, List.not_mem_nil, or_false] at hu
    omega

theorem quotes_unitEscapes {escaped : List Nat} (h : ∀ u ∈ escaped, u < 0x10000)
    {units : List Nat} {cs : List Char} (rest : Quotes units cs) :
    Quotes (escaped ++ units) (escaped.flatMap unitEscape ++ cs) := by
  induction escaped with
  | nil => exact rest
  | cons u escaped ih =>
      obtain ⟨first, h⟩ := List.forall_mem_cons.mp h
      rw [List.flatMap_cons, List.append_assoc]
      exact quotes_unitEscape first (ih h)

/-- The three forms of a written code point: a letter after a backslash, the character itself, or
its code units after backslashes. -/
inductive CodeForm (n : Nat) : List Char → Prop
  | letter {e c : Char} (known : escaped? e = some c) (value : c.toNat = n)
      (ascii : isAscii e = true) : CodeForm n ['\\', e]
  | plain {c : Char} (value : c.toNat = n) (ascii : isAscii c = true)
      (unescaped : c ≠ '"' ∧ c ≠ '\\') : CodeForm n [c]
  | units : CodeForm n ((unitsOf n).flatMap unitEscape)

theorem codeForm_writeCode (n : Nat) : CodeForm n (writeCode n) := by
  have either {p : Prop} [Decidable p] {a b : List Char} (yes : p → CodeForm n a)
      (no : ¬p → CodeForm n b) : CodeForm n (if p then a else b) := by
    split
    · next h => exact yes h
    · next h => exact no h
  have letter (e : Char) {c : Char} (known : escaped? e = some c) (ascii : isAscii e = true)
      (same : n = c.toNat) : CodeForm n ['\\', e] := .letter known same.symm ascii
  refine either (letter '"' rfl rfl) fun quote =>
    either (letter '\\' rfl rfl) fun backslash =>
    either (letter 'n' rfl rfl) fun _ => either (letter 'r' rfl rfl) fun _ =>
    either (letter 't' rfl rfl) fun _ => either (letter 'b' rfl rfl) fun _ =>
    either (letter 'f' rfl rfl) fun _ => either (fun shown => ?_) fun _ => .units
  have value : (Char.ofNat n).toNat = n := by
    have all : ∀ n < 127, (Char.ofNat n).toNat = n := by decide
    exact all n (by omega)
  refine .plain value ?_ ⟨fun same => ?_, fun same => ?_⟩
  · simp only [isAscii, value, Bool.and_eq_true, decide_eq_true_eq]
    exact shown
  · exact quote (value.symm.trans (congrArg Char.toNat same))
  · exact backslash (value.symm.trans (congrArg Char.toNat same))

/-- A written code point denotes its code units. -/
theorem quotes_writeCode {n : Nat} (h : n < 0x110000) {units : List Nat} {cs : List Char}
    (rest : Quotes units cs) : Quotes (unitsOf n ++ units) (writeCode n ++ cs) := by
  have one {c : Char} (value : c.toNat = n) (small : c.toNat < 0x10000) :
      unitsOf n = [c.toNat] := by
    rw [unitsOf, if_pos (value ▸ small), value]
  have escapedSmall {e c : Char} (known : escaped? e = some c) : c.toNat < 0x10000 := by
    simp only [escaped?] at known
    split at known <;> cases known <;> decide
  have form := codeForm_writeCode n
  generalize writeCode n = written at form
  cases form with
  | letter known value ascii =>
      rw [one value (escapedSmall known)]
      exact .short known rest
  | plain value ascii unescaped =>
      simp only [isAscii, Bool.and_eq_true, decide_eq_true_eq] at ascii
      rw [one value (by omega)]
      exact .plain ⟨ascii.1, unescaped⟩ rest
  | units => exact quotes_unitEscapes (unitsOf_lt h) rest

theorem all_isAscii_writeCode (n : Nat) : (writeCode n).all isAscii = true := by
  have form := codeForm_writeCode n
  generalize writeCode n = written at form
  cases form with
  | letter known value ascii => rw [List.all_cons, List.all_cons, ascii]; rfl
  | plain value ascii unescaped => rw [List.all_cons, ascii]; rfl
  | units =>
      rw [List.all_flatMap]
      exact List.all_eq_true.mpr fun u _ => all_isAscii_unitEscape u

theorem quotes_flatMap_writeCode {codes : List Nat} (h : ∀ n ∈ codes, n < 0x110000) :
    Quotes (codes.flatMap unitsOf) (codes.flatMap writeCode) := by
  induction codes with
  | nil => exact .done
  | cons n codes ih =>
      obtain ⟨first, h⟩ := List.forall_mem_cons.mp h
      exact quotes_writeCode first (ih h)

/-- A text that the writer can have written for a stretch: it follows the grammar, in printable
ASCII. -/
structure Written (lenient : Bool) (p : Stretch) (cs : List Char) : Prop where
  spelled : Spells lenient p cs
  ascii : cs.all isAscii = true

namespace Written

variable {lenient : Bool}

theorem denotes {s : String} {d : Document} (h : Written lenient (.one (.item d)) s.toList) :
    Denotes lenient s d :=
  ⟨[], s.toList, [], rfl, rfl, (List.append_nil _).symm, h.spelled⟩

/-- Characters of numbers are printable ASCII. -/
theorem isAscii_of_isNumberChar {c : Char} (h : isNumberChar c = true) : isAscii c = true := by
  have between {low high : UInt32} (above : low ≤ c.val) (below : c.val ≤ high)
      (hl : 32 ≤ low.toNat) (hh : high.toNat ≤ 126) : isAscii c = true :=
    Bool.and_eq_true_iff.mpr
      ⟨decide_eq_true (Nat.le_trans hl (UInt32.le_iff_toNat_le.mp above)),
        decide_eq_true (Nat.le_trans (UInt32.le_iff_toNat_le.mp below) hh)⟩
  simp only [isNumberChar, Bool.or_eq_true, beq_iff_eq] at h
  obtain ((alphanumeric | rfl) | rfl) | rfl := h
  · obtain letter | digit := Bool.or_eq_true_iff.mp alphanumeric
    · obtain upper | lower := Bool.or_eq_true_iff.mp letter
      · obtain ⟨above, below⟩ := of_decide_eq_true upper
        exact between above below (by decide) (by decide)
      · obtain ⟨above, below⟩ := Bool.and_eq_true_iff.mp lower
        exact between (of_decide_eq_true above) (of_decide_eq_true below) (by decide) (by decide)
    · obtain ⟨above, below⟩ := Bool.and_eq_true_iff.mp digit
      exact between (of_decide_eq_true above) (of_decide_eq_true below) (by decide) (by decide)
  all_goals decide

theorem number {cs : List Char} (h : Numeral cs ∨ lenient = true ∧ cs ∈ nonFiniteWords) :
    Written lenient (.one (.item (.number cs))) cs where
  spelled := .number h
  ascii := List.all_eq_true.mpr fun c hc =>
    isAscii_of_isNumberChar (List.all_eq_true.mp (all_isNumberChar h) c hc)

theorem all_isAscii_around {a b : Char} {cs : List Char} (ha : isAscii a = true)
    (hb : isAscii b = true) (h : cs.all isAscii = true) : (a :: cs ++ [b]).all isAscii = true := by
  rw [List.cons_append, List.all_cons, List.all_append, List.all_cons, ha, hb, h]
  rfl

theorem all_isAscii_writeCodes (codes : List Nat) : (writeCodes codes).all isAscii = true := by
  refine all_isAscii_around rfl rfl ?_
  rw [List.all_flatMap]
  exact List.all_eq_true.mpr fun n _ => all_isAscii_writeCode n

theorem codes {codes : List Nat} (h : ∀ n ∈ codes, n < 0x110000) :
    Written lenient (.one (.item (.text (joined codes)))) (writeCodes codes) := by
  refine ⟨?_, all_isAscii_writeCodes codes⟩
  rw [← joined_flatMap_unitsOf h]
  exact .text (quotes_flatMap_writeCode h)

theorem text {τ : Type} [Textual τ] (s : τ) :
    Written lenient (.one (.item (.text (joined (Textual.codes s)))))
      (writeCodes (Textual.codes s)) :=
  codes (Textual.codes_lt s)

theorem string (s : String) :
    Written lenient (.one (.item (.text (codesOf s)))) (writeText s) := by
  rw [← joined_codesOf]
  exact text s

theorem array {items : List Document} {cs : List Char}
    (h : Written lenient (.all (items.map .item)) cs) :
    Written lenient (.one (.item (.array items))) ('[' :: cs ++ [']']) where
  spelled := .array h.spelled
  ascii := all_isAscii_around rfl rfl h.ascii

theorem object {members : List (List Nat × Document)} {cs : List Char}
    (h : Written lenient (.all (members.map .ofMember)) cs) :
    Written lenient (.one (.item (.object members))) ('\x7b' :: cs ++ ['\x7d']) where
  spelled := .object h.spelled
  ascii := all_isAscii_around rfl rfl h.ascii

theorem member {key : List Nat} (hkey : ∀ n ∈ key, n < 0x110000) {d : Document} {cs : List Char}
    (h : Written lenient (.one (.item d)) cs) :
    Written lenient (.one (.member (joined key) d)) (writeCodes key ++ ':' :: ' ' :: cs) where
  spelled := by
    have spelled : Spells lenient (.one (.member (joined (key.flatMap unitsOf)) d))
        ('"' :: key.flatMap writeCode ++ '"' :: ([] ++ ':' :: ([' '] ++ cs))) :=
      .member (quotes_flatMap_writeCode hkey) rfl rfl h.spelled
    rw [joined_flatMap_unitsOf hkey] at spelled
    simpa [writeCodes] using spelled
  ascii := by
    rw [List.all_append, List.all_cons, List.all_cons, h.ascii, all_isAscii_writeCodes]
    rfl

theorem nothing : Written lenient (.all []) [] := ⟨.empty rfl, rfl⟩

theorem single {x : Element} {cs : List Char} (h : Written lenient (.one x) cs) :
    Written lenient (.all [x]) cs where
  spelled := by
    have spelled : Spells lenient (.all [x]) ([] ++ (cs ++ [])) := .last rfl rfl h.spelled
    rwa [List.append_nil, List.nil_append] at spelled
  ascii := h.ascii

/-- A blank in front of elements belongs to them. -/
theorem blank {xs : List Element} {cs : List Char} (h : Spells lenient (.all xs) cs) :
    Spells lenient (.all xs) (' ' :: cs) := by
  cases h with
  | empty hb => exact .empty hb
  | @last _ before _ _ hb ha h => exact show Spells _ _ ((' ' :: before) ++ _) from .last hb ha h
  | @more _ _ _ before _ _ _ hb ha h hr =>
      exact show Spells _ _ ((' ' :: before) ++ _) from .more hb ha h hr

theorem more {x y : Element} {xs : List Element} {cs rest : List Char}
    (h : Written lenient (.one x) cs) (hr : Written lenient (.all (y :: xs)) rest) :
    Written lenient (.all (x :: y :: xs)) (cs ++ ',' :: ' ' :: rest) where
  spelled := show Spells lenient _ ([] ++ (cs ++ ([] ++ ',' :: ' ' :: rest))) from
    .more rfl rfl h.spelled (blank hr.spelled)
  ascii := by
    rw [List.all_append, List.all_cons, List.all_cons, h.ascii, hr.ascii]
    rfl

/-- Elements that are written one by one are written with commas between them. -/
theorem intercalate {xs : List Element} {written : List (List Char)}
    (h : List.Forall₂ (fun x cs => Written lenient (.one x) cs) xs written) :
    Written lenient (.all xs) ([',', ' '].intercalate written) := by
  induction h with
  | nil => exact nothing
  | @cons x cs xs written first rest ih =>
      cases rest with
      | nil => simpa [List.intercalate] using single first
      | cons second rest =>
          rw [List.intercalate_cons_cons, List.append_assoc]
          exact more first ih

end Written
end Json
end FluentSql
