import FluentSql.Proofs.Marks
import FluentSql.Proofs.NameCharacters

/-!
Names have no positional marks of their own. A table reference that can be read has only characters
that no mark begins with, and a name that has no mark has none when it is quoted part by part.
-/

namespace FluentSql

theorem Identifier.isNameChar_unmarked {c : Char} (h : isNameChar c = true) :
    c ≠ '?' ∧ c ≠ '%' := by
  constructor <;> (rintro rfl; cases h)

theorem TableReference.split_unmarked {v : Value} {t : TableReference} (h : split v = .ok t) :
    (∀ c ∈ t.name.toList, c ≠ '?' ∧ c ≠ '%') ∧
      ∀ short ∈ t.shortName, ∀ c ∈ short.toList, c ≠ '?' ∧ c ≠ '%' := by
  obtain ⟨name, shortName⟩ := split_chars h
  exact ⟨fun c hc => Identifier.isNameChar_unmarked (name c hc),
    fun short hshort c hc => Identifier.isNameChar_unmarked (shortName short hshort c hc)⟩

namespace Dialect

/-- Marks and stand-ins around a quoted name that no placeholder has. -/
def Quotes.isQuiet (q : Quotes) : Bool :=
  Text.isQuiet q.opening && Text.isQuiet q.closing &&
    q.escaped.all fun (_, cs) => !cs.isEmpty && cs.all Text.isQuiet

theorem quotes_isQuiet (dialect : String) : (quotes dialect).isQuiet = true := by
  simp only [quotes]
  split
  · decide
  · split
    · decide
    · split
      · decide
      · split <;> decide

variable {style : Style} (positional : style.isNamed = false)
include positional

theorem occurrences_quotePart {q : Quotes} (quiet : q.isQuiet = true) {part : List Char}
    (h : Text.occurrences style.mark part = 0) :
    Text.occurrences style.mark (quotePart q part) = 0 := by
  simp only [Quotes.isQuiet, Bool.and_eq_true, List.all_eq_true] at quiet
  obtain ⟨⟨hopening, hclosing⟩, hescaped⟩ := quiet
  have written (c : Char) : (q.escaped.lookup c).getD [c] = [c] ∨
      ((q.escaped.lookup c).getD [c] ≠ [] ∧
        ((q.escaped.lookup c).getD [c]).all Text.isQuiet = true) := by
    cases hlookup : q.escaped.lookup c with
    | none => exact .inl rfl
    | some cs =>
        obtain ⟨before, after, hentries, -⟩ := List.lookup_eq_some_iff.mp hlookup
        have entry := hescaped (c, cs) (by rw [hentries]; simp)
        exact .inr ⟨by simpa using entry.1, List.all_eq_true.mpr entry.2⟩
  have opening : [q.opening].all Text.isQuiet = true := by simpa using hopening
  have closing : [q.closing].all Text.isQuiet = true := by simpa using hclosing
  have first := Text.isFence_of_quiet (List.cons_ne_nil _ _) opening
  have last := Text.isFence_of_quiet (List.cons_ne_nil _ _) closing
  rw [quotePart, Text.occurrences_append positional (.inr last.head),
    ← List.singleton_append, Text.occurrences_append positional (.inl first.last),
    Text.occurrences_quiet positional opening, Text.occurrences_quiet positional closing,
    Text.occurrences_flatMap positional written h]

/-- Quoting brings in no mark. -/
theorem occurrences_quote (dialect : String) {name : String}
    (h : Text.occurrences style.mark name.toList = 0) :
    Text.occurrences style.mark (quote dialect name).toList = 0 := by
  rw [quote, String.toList_intercalate, List.map_map]
  refine Text.occurrences_intercalate positional (by constructor <;> decide)
    (Text.occurrences_quiet positional (by decide)) fun text htext => ?_
  obtain ⟨piece, hpiece, rfl⟩ := List.mem_map.mp htext
  simp only [Function.comp_apply]
  split
  · exact Text.occurrences_quiet positional (by decide)
  · rw [String.toList_ofList]
    exact occurrences_quotePart positional (quotes_isQuiet dialect)
      (Text.occurrences_infix (Identifier.splitDots_infix hpiece) h)

end Dialect
end FluentSql
