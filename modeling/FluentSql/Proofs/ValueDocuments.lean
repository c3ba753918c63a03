import Std.Data.String.ToInt
import FluentSql.Proofs.Outcome
import FluentSql.Proofs.WrittenJson

/-!
The document that a value is written as. Bytes, and whatever else JSON has no form for, stand in it
as texts. A value is written unless a whole number in it has too many digits or a key of a map is
not a plain one. The writing follows the strict grammar exactly when no number in the value, keys
apart, is infinite or `nan`. Texts, whole numbers, truth values and nothing are read back as they
were, unless the first half of a character stands directly before a second one in a text.
-/

namespace FluentSql

namespace Value

open Json

variable {τ : Type}

/-- A key that is a text, a number, a truth value or nothing, and has a text. -/
def isPlainKey : Value τ → Bool
  | .text _ | .bool _ | .float _ | .none => true
  | .int n => Text.writable n.natAbs
  | _ => false

mutual

/-- Whether a value is written: its numbers have few enough digits and its keys are plain. -/
def encodable : Value τ → Bool
  | .int n => Text.writable n.natAbs
  | .list items => allEncodable items
  | .tuple items => allEncodable items
  | .map entries => entriesEncodable entries
  | _ => true

def allEncodable : List (Value τ) → Bool
  | [] => true
  | item :: rest => encodable item && allEncodable rest

def entriesEncodable : List (Value τ × Value τ) → Bool
  | [] => true
  | (key, value) :: rest => isPlainKey key && encodable value && entriesEncodable rest

end

mutual

/-- Whether no number in a value is infinite or `nan`; keys do not count, since they are written as
texts. -/
def isFinite : Value τ → Bool
  | .float .nan => false
  | .float (.infinite _) => false
  | .list items => allFinite items
  | .tuple items => allFinite items
  | .map entries => entriesFinite entries
  | _ => true

def allFinite : List (Value τ) → Bool
  | [] => true
  | item :: rest => isFinite item && allFinite rest

def entriesFinite : List (Value τ × Value τ) → Bool
  | [] => true
  | (_, value) :: rest => isFinite value && entriesFinite rest

end

variable [Textual τ]

/-- The name that a written key is read as. -/
def keyName (key : Value τ) : List Nat := joined ((keyCodes key).toOption.getD [])

mutual

def document : Value τ → Document
  | .none => .null
  | .bool b => .bool b
  | .int n => .number (toString n).toList
  | .float x => .number (floatWord x).toList
  | .text s => .text (joined (Textual.codes s))
  | .list items => .array (documents items)
  | .tuple items => .array (documents items)
  | .map entries => .object (members entries)
  | .bytes bs => .text (codesOf (Value.bytes bs : Value τ).display)
  | .iterator items => .text (codesOf (Value.iterator items).display)
  | .missing => .text (codesOf (Value.missing : Value τ).display)
  | .callback calls => .text (codesOf (Value.callback calls).display)

def documents : List (Value τ) → List Document
  | [] => []
  | item :: rest => document item :: documents rest

def members : List (Value τ × Value τ) → List (List Nat × Document)
  | [] => []
  | (key, value) :: rest => (keyName key, document value) :: members rest

end

end Value

namespace Json

open Value

variable {τ : Type} {lenient : Bool}

/-- The words for numbers that are not finite are no numbers of the strict grammar. -/
theorem not_numeral_of_nonFinite {cs : List Char} (h : cs ∈ nonFiniteWords) : ¬Numeral cs := by
  intro numeral
  obtain ⟨d, rest, digit, start⟩ := numeral.head
  simp only [nonFiniteWords, List.mem_cons, List.not_mem_nil, or_false] at h
  obtain rfl | rfl | rfl := h <;> obtain start | start := start <;> cases start <;> cases digit

/-- The word of a number is a number of the grammar, or a word for one that is not finite. -/
theorem floatWord_cases (τ : Type) (x : Binary64) :
    (Value.float x : Value τ).isFinite = true ∧ Numeral (floatWord x).toList ∨
      (Value.float x : Value τ).isFinite = false ∧ (floatWord x).toList ∈ nonFiniteWords := by
  cases x with
  | finite negative m e => exact .inl ⟨rfl, Binary64.numeral_toText negative m e⟩
  | nan => exact .inr ⟨rfl, by decide⟩
  | infinite negative => exact .inr ⟨rfl, by cases negative <;> decide⟩

theorem written_float {x : Binary64}
    (h : lenient = true ∨ (Value.float x : Value τ).isFinite = true) :
    Written lenient (.one (.item (.number (floatWord x).toList))) (floatWord x).toList := by
  obtain ⟨-, numeral⟩ | ⟨notFinite, word⟩ := floatWord_cases τ x
  · exact .number (.inl numeral)
  · obtain h | h := h
    · exact .number (.inr ⟨h, word⟩)
    · exact absurd h (Bool.eq_false_iff.mp notFinite)

theorem isOk_textOf_int (n : Int) :
    (Raised.textOf (.int n)).isOk = Text.writable n.natAbs := by
  rw [Raised.textOf, isWritable]
  cases Text.writable n.natAbs <;> rfl

variable [Textual τ]

theorem isOk_keyCodes (key : Value τ) : (keyCodes key).isOk = key.isPlainKey := by
  cases key with
  | int n =>
      rw [keyCodes, Raised.textCodes, isWritable, isPlainKey]
      cases Text.writable n.natAbs <;> rfl
  | _ => rfl

theorem isOk_writeEntry (key : Value τ) (value : Except Raised (List Char)) :
    (writeEntry key value).isOk = (key.isPlainKey && value.isOk) := by
  rw [← isOk_keyCodes]
  exact isOk_bind_bind_ok _ _ _

mutual

/-- A value is written exactly when it is encodable. -/
theorem isOk_write (v : Value τ) : (write v).isOk = v.encodable := by
  cases v with
  | int n =>
      rw [write, encodable, ← isOk_textOf_int]
      exact isOk_bind_ok _ _
  | list items | tuple items =>
      rw [write, encodable, ← isOk_writeItems]
      exact isOk_bind_ok _ _
  | map entries =>
      rw [write, encodable, ← isOk_writeEntries]
      exact isOk_bind_ok _ _
  | _ =>
      rw [write]
      rfl

theorem isOk_writeItems (items : List (Value τ)) :
    (writeItems items).isOk = allEncodable items := by
  match items with
  | [] => rfl
  | [item] => rw [writeItems, isOk_write, allEncodable, allEncodable, Bool.and_true]
  | item :: second :: rest =>
      rw [writeItems, allEncodable, ← isOk_write, ← isOk_writeItems]
      · exact isOk_bind_bind_ok _ _ _
      · simp

theorem isOk_writeEntries (entries : List (Value τ × Value τ)) :
    (writeEntries entries).isOk = entriesEncodable entries := by
  match entries with
  | [] => rfl
  | [(key, value)] =>
      rw [writeEntries, isOk_writeEntry, isOk_write, entriesEncodable, entriesEncodable,
        Bool.and_true]
  | (key, value) :: second :: rest =>
      rw [writeEntries, entriesEncodable, ← isOk_write, ← isOk_writeEntry, ← isOk_writeEntries]
      · exact isOk_bind_bind_ok _ _ _
      · simp

end

theorem written_int {n : Int} {cs : List Char} (h : write (.int n : Value τ) = .ok cs) :
    Written lenient (.one (.item (.number (toString n).toList))) cs := by
  rw [write] at h
  obtain ⟨text, made, h⟩ := ok_bind_iff.mp h
  simp only [Raised.textOf] at made
  split at made
  · cases made
    cases h
    exact .number (.inl (numeral_int n))
  · cases made

/-- The code points of keys are numbers that are. -/
theorem keyCodes_lt {key : Value τ} {codes : List Nat} (h : keyCodes key = .ok codes) :
    ∀ n ∈ codes, n < 0x110000 := by
  have string (s : String) : ∀ n ∈ codesOf s, n < 0x110000 := Textual.codes_lt s
  cases key with
  | text s =>
      cases h
      exact Textual.codes_lt s
  | int n =>
      rw [keyCodes, Raised.textCodes] at h
      split at h
      · cases h
        exact string _
      · cases h
  | none | bool | float =>
      cases h
      exact string _
  | _ => cases h

theorem written_writeEntry {key : Value τ} {value : Except Raised (List Char)} {d : Document}
    {cs : List Char} (hv : ∀ cs, value = .ok cs → Written lenient (.one (.item d)) cs)
    (h : writeEntry key value = .ok cs) :
    Written lenient (.one (.member key.keyName d)) cs := by
  obtain ⟨name, hname, h⟩ := ok_bind_iff.mp h
  obtain ⟨written, hwritten, h⟩ := ok_bind_iff.mp h
  cases h
  rw [keyName, hname]
  exact .member (keyCodes_lt hname) (hv written hwritten)

theorem both_finite {a b : Bool} (h : lenient = true ∨ (a && b) = true) :
    (lenient = true ∨ a = true) ∧ (lenient = true ∨ b = true) := by
  rw [Bool.and_eq_true] at h
  exact ⟨h.imp_right And.left, h.imp_right And.right⟩

mutual

/-- What is written for a value denotes its document. -/
theorem written_write (v : Value τ) {cs : List Char} (h : write v = .ok cs)
    (finite : lenient = true ∨ v.isFinite = true) :
    Written lenient (.one (.item v.document)) cs := by
  cases v with
  | none =>
      rw [write] at h
      cases h
      exact ⟨.null, by decide⟩
  | bool b =>
      rw [write] at h
      cases h
      cases b
      · exact ⟨.no, by decide⟩
      · exact ⟨.yes, by decide⟩
  | int n => exact written_int h
  | float x =>
      rw [write] at h
      cases h
      exact written_float finite
  | list items | tuple items =>
      rw [write] at h
      obtain ⟨inner, hinner, h⟩ := ok_bind_iff.mp h
      cases h
      rw [document]
      exact .array (written_writeItems items hinner finite)
  | map entries =>
      rw [write] at h
      obtain ⟨inner, hinner, h⟩ := ok_bind_iff.mp h
      cases h
      rw [document]
      exact .object (written_writeEntries entries hinner finite)
  | text s =>
      rw [write] at h
      cases h
      rw [document]
      exact .text s
  | _ =>
      rw [write] at h
      cases h
      exact .string _

theorem written_writeItems (items : List (Value τ)) {cs : List Char}
    (h : writeItems items = .ok cs)
    (finite : lenient = true ∨ allFinite items = true) :
    Written lenient (.all ((documents items).map .item)) cs := by
  match items with
  | [] =>
      cases h
      exact .nothing
  | [item] => exact .single (written_write item h (both_finite finite).1)
  | item :: second :: rest =>
      rw [writeItems] at h
      · obtain ⟨first, hfirst, h⟩ := ok_bind_iff.mp h
        obtain ⟨more, hmore, h⟩ := ok_bind_iff.mp h
        cases h
        obtain ⟨here, later⟩ := both_finite finite
        exact .more (written_write item hfirst here)
          (written_writeItems (second :: rest) hmore later)
      · simp

theorem written_writeEntries (entries : List (Value τ × Value τ)) {cs : List Char}
    (h : writeEntries entries = .ok cs) (finite : lenient = true ∨ entriesFinite entries = true) :
    Written lenient (.all ((members entries).map .ofMember)) cs := by
  match entries with
  | [] =>
      cases h
      exact .nothing
  | [(key, value)] =>
      have here : lenient = true ∨ value.isFinite = true := (both_finite finite).1
      exact .single (written_writeEntry (fun cs h => written_write value h here) h)
  | (key, value) :: second :: rest =>
      rw [writeEntries] at h
      · obtain ⟨first, hfirst, h⟩ := ok_bind_iff.mp h
        obtain ⟨more, hmore, h⟩ := ok_bind_iff.mp h
        cases h
        obtain ⟨here, later⟩ := both_finite finite
        exact .more (written_writeEntry (fun cs h => written_write value h here) hfirst)
          (written_writeEntries (second :: rest) hmore later)
      · simp

end

theorem item_of_member {key : List Nat} {d : Document} {cs : List Char}
    (h : Spells lenient (.one (.member key d)) cs) :
    ∃ inner, Spells lenient (.one (.item d)) inner := by
  cases h with
  | member _ _ _ h => exact ⟨_, h⟩

mutual

/-- What is written for a value follows the strict grammar only if its numbers are finite. -/
theorem isFinite_of_spells (v : Value τ) {cs : List Char}
    (h : Spells false (.one (.item v.document)) cs) : v.isFinite = true := by
  cases v with
  | float x =>
      cases h with
      | number h =>
          obtain ⟨finite, -⟩ | ⟨-, word⟩ := floatWord_cases τ x
          · exact finite
          · obtain numeral | ⟨impossible, -⟩ := h
            · exact absurd numeral (not_numeral_of_nonFinite word)
            · cases impossible
  | list items | tuple items =>
      rw [document] at h
      cases h with
      | array h => exact allFinite_of_spells items h
  | map entries =>
      rw [document] at h
      cases h with
      | object h => exact entriesFinite_of_spells entries h
  | _ => rfl

theorem allFinite_of_spells (items : List (Value τ)) {cs : List Char}
    (h : Spells false (.all ((documents items).map .item)) cs) : allFinite items = true := by
  match items with
  | [] => rfl
  | [item] =>
      cases h with
      | last _ _ h => exact Bool.and_eq_true_iff.mpr ⟨isFinite_of_spells item h, rfl⟩
  | item :: second :: rest =>
      cases h with
      | more _ _ h hr =>
          exact Bool.and_eq_true_iff.mpr
            ⟨isFinite_of_spells item h, allFinite_of_spells (second :: rest) hr⟩

theorem entriesFinite_of_spells (entries : List (Value τ × Value τ)) {cs : List Char}
    (h : Spells false (.all ((members entries).map .ofMember)) cs) :
    entriesFinite entries = true := by
  match entries with
  | [] => rfl
  | [(key, value)] =>
      cases h with
      | last _ _ h =>
          obtain ⟨_, h⟩ := item_of_member h
          exact Bool.and_eq_true_iff.mpr ⟨isFinite_of_spells value h, rfl⟩
  | (key, value) :: second :: rest =>
      cases h with
      | more _ _ h hr =>
          obtain ⟨_, h⟩ := item_of_member h
          exact Bool.and_eq_true_iff.mpr
            ⟨isFinite_of_spells value h, entriesFinite_of_spells (second :: rest) hr⟩

end

theorem isOk_writeObject (entries : List (Value τ × Except Raised (List Char))) :
    (writeObject entries).isOk = entries.all fun entry => entry.1.isPlainKey && entry.2.isOk := by
  rw [writeObject, isOk_bind_ok]
  induction entries with
  | nil => rfl
  | cons entry entries ih =>
      rw [List.mapM_cons, List.all_cons, ← ih, ← isOk_writeEntry]
      exact isOk_bind_bind_ok _ _ _

/-- Fields whose values are written as documents are written as an object of these. -/
theorem written_writeObject {α : Type} {fields : List (Value τ × α)}
    {content : α → Except Raised (List Char)} {document : α → Document}
    (each : ∀ field ∈ fields, ∀ cs, content field.2 = .ok cs →
      Written lenient (.one (.item (document field.2))) cs)
    {cs : List Char} (h : writeObject (fields.map fun (key, x) => (key, content x)) = .ok cs) :
    Written lenient (.one (.item (.object
      (fields.map fun (key, x) => (key.keyName, document x))))) cs := by
  obtain ⟨written, hwritten, h⟩ := ok_bind_iff.mp h
  cases h
  refine .object (.intercalate ?_)
  rw [List.map_map, List.forall₂_map_left_iff]
  have one := List.forall₂_map_left_iff.mp (mapM_ok_iff.mp hwritten)
  exact (List.forall₂_iff_zip.mpr ⟨one.length_eq, fun hm =>
    written_writeEntry (each _ (List.of_mem_zip hm).1) (List.forall₂_zip one hm)⟩)

/-- The documents of members are spelled as the members are. -/
theorem items_of_members {members : List (List Nat × Document)} {cs : List Char}
    (h : Spells lenient (.all (members.map .ofMember)) cs) :
    ∀ m ∈ members, ∃ inner, Spells lenient (.one (.item m.2)) inner := by
  induction members generalizing cs with
  | nil => exact List.forall_mem_nil _
  | cons m members ih =>
      cases members with
      | nil =>
          cases h with
          | last _ _ h => exact List.forall_mem_singleton.mpr (item_of_member h)
      | cons second members =>
          cases h with
          | more _ _ h hr => exact List.forall_mem_cons.mpr ⟨item_of_member h, ih hr⟩

/-- The value that a document is read as, if it is a text of the wanted type, a whole number, a
truth value or nothing. -/
def Document.plain? : Document → Option (Value τ)
  | .null => some .none
  | .bool b => some (.bool b)
  | .number cs => (String.ofList cs).toInt?.map .int
  | .text codes =>
    if codes.all (Textual.holds τ) then some (.text (Textual.ofCodes codes)) else Option.none
  | .array _ => Option.none
  | .object _ => Option.none

end Json

namespace Value

open Json

variable {τ : Type} [Textual τ]

/-- Texts in which no half of a character stands directly before the other one, whole numbers, truth
values and nothing. -/
def isPlain : Value τ → Bool
  | .none | .bool _ | .int _ => true
  | .text s => joined (Textual.codes s) == Textual.codes s
  | _ => false

/-- A plain value is read back from its document. -/
theorem plain?_document {v : Value τ} (h : v.isPlain = true) : v.document.plain? = some v := by
  cases v with
  | none | bool => rfl
  | int n =>
      rw [document, Document.plain?, String.ofList_toList, Int.toString_eq_repr, Int.toInt?_repr]
      rfl
  | text s =>
      have whole : joined (Textual.codes s) = Textual.codes s := eq_of_beq h
      have held : (Textual.codes s).all (Textual.holds τ) = true :=
        List.all_eq_true.mpr (Textual.holds_codes s)
      rw [document, whole, Document.plain?, if_pos held, Textual.ofCodes_codes]
  | _ => cases h

/-- Strings are plain as they stand. -/
theorem isPlain_ofString (s : String) : (ofString s : Value τ).isPlain = true := by
  rw [ofString, isPlain, Textual.codes_ofString, joined_codesOf]
  exact beq_self_eq_true _

end Value
end FluentSql
