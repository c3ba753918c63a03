import Mathlib.Data.List.Chain
import FluentSql.Compile.Placeholder
import FluentSql.Operator
import FluentSql.Proofs.FreshName
import FluentSql.Proofs.NameCharacters

/-!
Texts that cannot leave their place. A harmless text neither quotes nor comments nor ends a
statement, and it has no control character. Texts that do not begin with a dash stay harmless when
they are joined; names, words, numbers and placeholders are such texts.
-/

namespace FluentSql

namespace Text

/-- Control characters, those beyond ASCII too. -/
def isControl (c : Char) : Bool := c.toNat < 32 || (127 ≤ c.toNat && c.toNat ≤ 159)

/-- Control characters, quotes, and what escapes, separates, comments or brackets. -/
def isHostile (c : Char) : Bool :=
  isControl c || ['\'', '"', '\x60', ';', '\\', '/', '#', '[', ']', '\x7b', '\x7d'].contains c

/-- A text without hostile characters and without two dashes in a row. -/
structure Harmless (s : String) : Prop where
  quiet : ∀ c ∈ s.toList, isHostile c = false
  uncommented : ¬ ['-', '-'] <:+: s.toList

/-- Harmless, and still so behind another text of this kind. -/
structure Woven (cs : List Char) : Prop where
  quiet : ∀ c ∈ cs, isHostile c = false
  apart : cs.IsChain fun c d => ¬ (c = '-' ∧ d = '-')
  head : cs.head? ≠ some '-'

instance (cs : List Char) : Decidable (Woven cs) :=
  decidable_of_iff (cs.all (fun c => !isHostile c) = true ∧
      (cs.IsChain fun c d => ¬ (c = '-' ∧ d = '-')) ∧ cs.head? ≠ some '-')
    ⟨fun ⟨quiet, apart, head⟩ => ⟨by simpa using quiet, apart, head⟩,
      fun h => ⟨by simpa using h.quiet, h.apart, h.head⟩⟩

namespace Woven

theorem harmless {s : String} (h : Woven s.toList) : Harmless s where
  quiet := h.quiet
  uncommented dashes := by
    have pair := h.apart.infix dashes
    simp at pair

theorem append {a b : List Char} (ha : Woven a) (hb : Woven b) : Woven (a ++ b) where
  quiet c hc := (List.mem_append.mp hc).elim (ha.quiet c) (hb.quiet c)
  apart := by
    -- two dashes could only meet where the second text begins
    refine List.isChain_append.mpr ⟨ha.apart, hb.apart, fun c _ d hd dashes => ?_⟩
    exact hb.head (by rw [Option.mem_def.mp hd, dashes.2])
  head := by
    cases a with
    | nil => exact hb.head
    | cons c cs => exact ha.head

theorem around {before text after : String} (hbefore : Woven before.toList)
    (h : Woven text.toList) (hafter : Woven after.toList) :
    Woven (before ++ text ++ after).toList := by
  rw [String.toList_append, String.toList_append]
  exact (hbefore.append h).append hafter

/-- Without any dash, only the characters count. -/
theorem of_chars {cs : List Char} (h : ∀ c ∈ cs, isHostile c = false ∧ c ≠ '-') : Woven cs where
  quiet c hc := (h c hc).1
  apart := by
    induction cs with
    | nil => exact .nil
    | cons c cs ih =>
        refine List.isChain_cons.mpr ⟨fun d _ dashes => ?_, ih fun d hd => h d (by simp [hd])⟩
        exact (h c (List.mem_cons_self ..)).2 dashes.1
  head dash := by
    cases cs with
    | nil => cases dash
    | cons c cs =>
        cases dash
        exact (h '-' (List.mem_cons_self ..)).2 rfl

end Woven
end Text

section

open Text

theorem Identifier.isNameChar_quiet {c : Char} (h : isNameChar c = true) :
    isHostile c = false ∧ c ≠ '-' := by
  have point := isNameChar_toNat h
  simp only [List.mem_cons, List.not_mem_nil, or_false] at point
  constructor
  · refine Bool.or_eq_false_iff.mpr ⟨?_, ?_⟩
    · simp only [isControl, Bool.or_eq_false_iff, Bool.and_eq_false_iff, decide_eq_false_iff_not]
      omega
    · refine Bool.eq_false_iff.mpr fun listed => ?_
      simp only [List.contains_iff_mem, List.mem_cons, List.not_mem_nil, or_false] at listed
      rcases listed with rfl | rfl | rfl | rfl | rfl | rfl | rfl | rfl | rfl | rfl | rfl <;> cases h
  · rintro rfl
    cases h

theorem woven_name {name : String} (h : ∀ c ∈ name.toList, Identifier.isNameChar c = true) :
    Woven name.toList :=
  .of_chars fun c hc => Identifier.isNameChar_quiet (h c hc)

theorem woven_operator (operator : Operator) : Woven operator.text.toList := by
  cases operator <;> decide

theorem woven_number (n : Nat) : Woven (toString n).toList := by
  refine woven_name fun c hc => ?_
  have digit : c.isDigit = true := Nat.isDigit_of_mem_toDigits (b := 10) (n := n)
    (by decide) (by decide) (by simpa using hc)
  simp [Identifier.isNameChar, TableReference.isPartChar, Identifier.isPartChar,
    Char.isAlphanum, digit]

theorem Collector.woven_numberedName (n : Nat) : Woven (numberedName n).toList := by
  rw [toList_numberedName]
  exact (by decide : Woven ['p']).append (woven_number n)

/-- A placeholder is harmless in every style. -/
theorem Collector.woven_bind (style : Style) (reserved : List String) (c : Collector) (v : Value) :
    Woven (c.bind style reserved v).1.toList := by
  have name := woven_numberedName (c.nextNumber reserved)
  cases style with
  | qmark => exact (by decide : Woven "?".toList)
  | format => exact (by decide : Woven "%s".toList)
  | named =>
      simp only [bind, String.toList_append]
      exact (by decide : Woven ":".toList).append name
  | pyformat =>
      simp only [bind, String.toList_append]
      exact ((by decide : Woven "%(".toList).append name).append (by decide : Woven ")s".toList)

end
end FluentSql
