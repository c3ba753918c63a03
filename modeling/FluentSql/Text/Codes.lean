/-!
Texts as rows of code points. A string is made of whole characters. A list of code points may hold
halves of characters as well, which are code points without being characters.
-/

namespace FluentSql

/-- The code points of a string. -/
def codesOf (s : String) : List Nat := s.toList.map Char.toNat

abbrev CodePoint : Type := Fin 0x110000

/-- A type of texts, each of which is known by its code points. Every row of characters is among the
texts. -/
class Textual (τ : Type) where
  /-- Whether a number is a code point that texts of this type may hold. -/
  holds (τ) : Nat → Bool
  codes : τ → List Nat
  ofCodes : List Nat → τ
  ofCodes_codes (s : τ) : ofCodes (codes s) = s
  codes_ofCodes {ns : List Nat} (held : ∀ n ∈ ns, holds n = true) : codes (ofCodes ns) = ns
  holds_codes (s : τ) : ∀ n ∈ codes s, holds n = true
  holds_char (c : Char) : holds c.toNat = true
  lt_of_holds {n : Nat} (held : holds n = true) : n < 0x110000

namespace Textual

instance : Textual String where
  holds n := decide n.isValidChar
  codes := codesOf
  ofCodes ns := String.ofList (ns.map Char.ofNat)
  ofCodes_codes s := by
    rw [codesOf, List.map_map]
    exact (congrArg String.ofList (List.map_id'' (fun c => Char.ofNat_toNat c) _)).trans
      String.ofList_toList
  codes_ofCodes {ns} held := by
    have same : ∀ n ∈ ns, (Char.ofNat n).toNat = n := by
      intro n hn
      rw [Char.ofNat, dif_pos (of_decide_eq_true (held n hn))]
      rfl
    rw [codesOf, String.toList_ofList, List.map_map]
    exact (List.map_congr_left same).trans (List.map_id' ns)
  holds_codes s n hn := by
    obtain ⟨c, -, rfl⟩ := List.mem_map.mp hn
    exact decide_eq_true c.valid
  holds_char c := decide_eq_true c.valid
  lt_of_holds {n} held := by
    obtain small | ⟨-, small⟩ : n < 0xd800 ∨ 0xdfff < n ∧ n < 0x110000 := of_decide_eq_true held
    · omega
    · exact small

instance : Textual (List CodePoint) where
  holds n := decide (n < 0x110000)
  codes s := s.map Fin.val
  ofCodes ns := ns.map (Fin.ofNat 0x110000)
  ofCodes_codes s := by
    rw [List.map_map]
    exact List.map_id'' (fun n => Fin.ofNat_val_eq_self n) s
  codes_ofCodes {ns} held := by
    rw [List.map_map]
    exact (List.map_congr_left fun n hn => Nat.mod_eq_of_lt (of_decide_eq_true (held n hn))).trans
      (List.map_id' ns)
  holds_codes s n hn := by
    obtain ⟨c, -, rfl⟩ := List.mem_map.mp hn
    exact decide_eq_true c.isLt
  holds_char c := by
    obtain small | ⟨-, small⟩ : c.toNat < 0xd800 ∨ 0xdfff < c.toNat ∧ c.toNat < 0x110000 := c.valid
    · exact decide_eq_true (by omega)
    · exact decide_eq_true small
  lt_of_holds held := of_decide_eq_true held

variable {τ : Type} [Textual τ]

def ofString (s : String) : τ := ofCodes (codesOf s)

/-- The characters of a text, each as a text of its own. -/
def characters (s : τ) : List τ := (codes s).map fun n => ofCodes [n]

theorem codes_lt (s : τ) : ∀ n ∈ codes s, n < 0x110000 := fun n hn =>
  lt_of_holds (holds_codes s n hn)

theorem codes_injective {s t : τ} (same : codes s = codes t) : s = t := by
  rw [← ofCodes_codes s, same, ofCodes_codes]

@[simp] theorem codes_ofString (s : String) : codes (ofString s : τ) = codesOf s := by
  refine codes_ofCodes fun n hn => ?_
  obtain ⟨c, -, rfl⟩ := List.mem_map.mp hn
  exact holds_char c

theorem ofString_injective : Function.Injective (ofString : String → τ) := by
  intro s t same
  have alike : codes (ofString s : τ) = codes (ofString t : τ) := congrArg codes same
  rw [codes_ofString, codes_ofString] at alike
  exact codes_injective alike

@[simp] theorem codes_eq_nil {s : String} : codes s = [] ↔ s = "" :=
  List.map_eq_nil_iff.trans String.toList_eq_nil_iff

@[simp] theorem ofString_string (s : String) : ofString s = s := ofCodes_codes s

end Textual
end FluentSql
