import FluentSql.Proofs.NameGrammar
import FluentSql.Proofs.Writing

/-!
Quoted names read back. A quoted name is a row of items with dots between them; an item is a bare
star or a text between marks, inside which some characters stand for themselves when they are
written twice. The closing mark is one of them, so what is quoted cannot end its marks, and a row of
items can be read in one way only, whatever is written behind it.
-/

namespace FluentSql

namespace Dialect

/-- What is written between two marks, and the text that it stands for. -/
inductive Inside (special : List Char) : List Char → List Char → Prop
  | nil : Inside special [] []
  | once {c : Char} {written meant : List Char} (plain : c ∉ special)
      (rest : Inside special written meant) : Inside special (c :: written) (c :: meant)
  | twice {c : Char} {written meant : List Char} (doubled : c ∈ special)
      (rest : Inside special written meant) : Inside special (c :: c :: written) (c :: meant)

/-- An item of a quoted name. -/
inductive Item where
  | star
  | quoted (piece : List Char)
deriving DecidableEq, Repr

namespace Item

/-- The piece of a name that an item stands for. -/
def piece : Item → List Char
  | .star => ['*']
  | .quoted piece => piece

/-- The item that a piece is written as. -/
def ofPiece (piece : List Char) : Item := if piece = ['*'] then .star else .quoted piece

theorem piece_ofPiece (p : List Char) : (ofPiece p).piece = p := by
  by_cases star : p = ['*']
  · rw [ofPiece, if_pos star, star]
    rfl
  · rw [ofPiece, if_neg star]
    rfl

theorem pieces_ofPiece (pieces : List (List Char)) :
    (pieces.map ofPiece).map piece = pieces := by
  rw [List.map_map, Function.comp_def]
  simp only [piece_ofPiece, List.map_id']

end Item

namespace Quotes

/-- The characters that are not written as they are between the marks. -/
def special (q : Quotes) : List Char := q.escaped.map (·.1)

/-- The text of one item. -/
inductive ReadsItem (q : Quotes) : List Char → Item → Prop
  | star : ReadsItem q ['*'] .star
  | quoted {written piece : List Char} (inside : Inside q.special written piece) :
      ReadsItem q (q.opening :: (written ++ [q.closing])) (.quoted piece)

/-- The text of a row of items with dots between them. -/
inductive Reads (q : Quotes) : List Char → List Item → Prop
  | one {text : List Char} {item : Item} (first : ReadsItem q text item) : Reads q text [item]
  | cons {text rest : List Char} {item : Item} {items : List Item}
      (first : ReadsItem q text item) (others : Reads q rest items) :
      Reads q (text ++ '.' :: rest) (item :: items)

/-- What may stand behind a row of items: it neither doubles a closing mark nor goes on with a
dot. -/
def Ends (q : Quotes) (rest : List Char) : Prop :=
  rest.head? ≠ some q.closing ∧ rest.head? ≠ some '.'

instance (q : Quotes) (rest : List Char) : Decidable (q.Ends rest) :=
  inferInstanceAs (Decidable (_ ∧ _))

/-- Quoting by doubling: the closing mark and all that is special are written twice, and the marks
cannot be taken for a star or a dot. -/
structure Doubles (q : Quotes) : Prop where
  twice : ∀ entry ∈ q.escaped, entry.2 = [entry.1, entry.1]
  closing : q.closing ∈ q.special
  opening : q.opening ≠ '*'
  dot : q.closing ≠ '.'

instance (q : Quotes) : Decidable q.Doubles :=
  decidable_of_iff ((∀ entry ∈ q.escaped, entry.2 = [entry.1, entry.1]) ∧ q.closing ∈ q.special ∧
      q.opening ≠ '*' ∧ q.closing ≠ '.')
    ⟨fun ⟨twice, closing, opening, dot⟩ => ⟨twice, closing, opening, dot⟩,
      fun h => ⟨h.twice, h.closing, h.opening, h.dot⟩⟩

end Quotes

/-- All dialects but one quote by doubling. -/
theorem quotes_doubles {dialect : String} (h : baseName dialect ≠ "bigquery") :
    (quotes dialect).Doubles := by
  simp only [quotes, h, if_false]
  split
  · decide
  · split
    · decide
    · split <;> decide

/-- Only one of them doubles more than its closing mark. -/
theorem special_quotes {dialect : String} (bigquery : baseName dialect ≠ "bigquery")
    (clickhouse : baseName dialect ≠ "clickhouse") :
    (quotes dialect).special = [(quotes dialect).closing] := by
  simp only [quotes, bigquery, clickhouse, if_false]
  split
  · rfl
  · split <;> rfl

namespace Quotes

section

variable {q : Quotes} (doubles : q.Doubles)
include doubles

/-- The first closing mark that is not doubled ends the text between the marks. -/
theorem inside_unique {written written' piece piece' rest rest' : List Char}
    (h : Inside q.special written piece) (h' : Inside q.special written' piece')
    (ends : rest.head? ≠ some q.closing) (ends' : rest'.head? ≠ some q.closing)
    (same : written ++ q.closing :: rest = written' ++ q.closing :: rest') :
    written = written' ∧ piece = piece' ∧ rest = rest' := by
  induction h generalizing written' piece' with
  | nil =>
      cases h' with
      | nil => exact ⟨rfl, rfl, (List.cons.inj same).2⟩
      | once plain _ => exact absurd ((List.cons.inj same).1 ▸ doubles.closing) plain
      | twice doubled _ =>
          obtain ⟨rfl, rfl⟩ := List.cons.inj same
          exact absurd rfl ends
  | once plain _ ih =>
      cases h' with
      | nil => exact absurd ((List.cons.inj same).1 ▸ doubles.closing) plain
      | once plain' inside' =>
          obtain ⟨rfl, tails⟩ := List.cons.inj same
          obtain ⟨rfl, rfl, rfl⟩ := ih inside' tails
          exact ⟨rfl, rfl, rfl⟩
      | twice doubled _ => exact absurd ((List.cons.inj same).1 ▸ doubled) plain
  | twice doubled _ ih =>
      cases h' with
      | nil =>
          obtain ⟨rfl, rfl⟩ := List.cons.inj same
          exact absurd rfl ends'
      | once plain' _ => exact absurd ((List.cons.inj same).1 ▸ doubled) plain'
      | twice doubled' inside' =>
          obtain ⟨rfl, tails⟩ := List.cons.inj same
          obtain ⟨rfl, rfl, rfl⟩ := ih inside' (List.cons.inj tails).2
          exact ⟨rfl, rfl, rfl⟩

theorem readsItem_unique {text text' rest rest' : List Char} {item item' : Item}
    (h : ReadsItem q text item) (h' : ReadsItem q text' item')
    (ends : rest.head? ≠ some q.closing) (ends' : rest'.head? ≠ some q.closing)
    (same : text ++ rest = text' ++ rest') : text = text' ∧ item = item' ∧ rest = rest' := by
  cases h with
  | star =>
      cases h' with
      | star => exact ⟨rfl, rfl, (List.cons.inj same).2⟩
      | quoted => exact absurd (List.cons.inj same).1.symm doubles.opening
  | quoted inside =>
      cases h' with
      | star => exact absurd (List.cons.inj same).1 doubles.opening
      | quoted inside' =>
          simp only [List.cons_append, List.append_assoc] at same
          have tails := (List.cons.inj same).2
          obtain ⟨rfl, rfl, rfl⟩ := inside_unique doubles inside inside' ends ends' tails
          exact ⟨rfl, rfl, rfl⟩

/-- A text begins with at most one row of items behind which something else begins. -/
theorem reads_unique {text text' rest rest' : List Char} {items items' : List Item}
    (h : Reads q text items) (h' : Reads q text' items') (ends : Ends q rest)
    (ends' : Ends q rest') (same : text ++ rest = text' ++ rest') :
    text = text' ∧ items = items' ∧ rest = rest' := by
  have dot (tail : List Char) : ('.' :: tail).head? ≠ some q.closing :=
    fun same => doubles.dot (Option.some.inj same).symm
  induction h generalizing text' items' with
  | one first =>
      cases h' with
      | one first' =>
          obtain ⟨rfl, rfl, rfl⟩ := readsItem_unique doubles first first' ends.1 ends'.1 same
          exact ⟨rfl, rfl, rfl⟩
      | cons first' _ =>
          rw [List.append_assoc, List.cons_append] at same
          obtain ⟨-, -, rfl⟩ := readsItem_unique doubles first first' ends.1 (dot _) same
          exact absurd rfl ends.2
  | cons first _ ih =>
      rw [List.append_assoc, List.cons_append] at same
      cases h' with
      | one first' =>
          obtain ⟨-, -, rfl⟩ := readsItem_unique doubles first first' (dot _) ends'.1 same
          exact absurd rfl ends'.2
      | cons first' others' =>
          rw [List.append_assoc, List.cons_append] at same
          obtain ⟨rfl, rfl, tails⟩ := readsItem_unique doubles first first' (dot _) (dot _) same
          obtain ⟨rfl, rfl, rfl⟩ := ih others' (List.cons.inj tails).2
          exact ⟨rfl, rfl, rfl⟩

theorem inside_escaped (piece : List Char) :
    Inside q.special (piece.flatMap fun c => (q.escaped.lookup c).getD [c]) piece := by
  induction piece with
  | nil => exact .nil
  | cons c piece ih =>
      rw [List.flatMap_cons]
      cases found : q.escaped.lookup c with
      | none =>
          refine .once (fun special => ?_) ih
          obtain ⟨entry, hentry, rfl⟩ := List.mem_map.mp special
          have other := List.lookup_eq_none_iff.mp found entry hentry
          simp at other
      | some written =>
          obtain ⟨before, after, split, -⟩ := List.lookup_eq_some_iff.mp found
          have entry : (c, written) ∈ q.escaped := by
            rw [split]
            exact List.mem_append_right _ (List.mem_cons_self ..)
          have double : written = [c, c] := doubles.twice _ entry
          rw [double]
          exact .twice (List.mem_map.mpr ⟨_, entry, rfl⟩) ih

/-- A piece as it is written. -/
def writtenPiece (q : Quotes) (piece : List Char) : List Char :=
  if piece = ['*'] then ['*'] else quotePart q piece

theorem readsItem_writtenPiece (piece : List Char) :
    q.ReadsItem (q.writtenPiece piece) (.ofPiece piece) := by
  rw [writtenPiece, Item.ofPiece]
  split
  · exact .star
  · exact .quoted (inside_escaped doubles piece)

theorem reads_writtenPieces {pieces : List (List Char)} (given : pieces ≠ []) :
    q.Reads (['.'].intercalate (pieces.map q.writtenPiece)) (pieces.map Item.ofPiece) := by
  induction pieces with
  | nil => exact absurd rfl given
  | cons piece pieces ih =>
      have first := readsItem_writtenPiece doubles piece
      cases pieces with
      | nil =>
          rw [List.map_singleton, List.intercalate_singleton]
          exact .one first
      | cons piece' pieces =>
          have others := ih (List.cons_ne_nil _ _)
          rw [List.map_cons, List.map_cons, List.intercalate_cons_cons, List.append_assoc]
          exact .cons first others

end

end Quotes

theorem toList_quote (dialect name : String) : (quote dialect name).toList =
    ['.'].intercalate
      ((Identifier.splitDots name.toList).map (quotes dialect).writtenPiece) := by
  rw [quote, String.toList_intercalate, List.map_map]
  congr 1
  refine List.map_congr_left fun piece _ => ?_
  rw [Function.comp_apply, Quotes.writtenPiece]
  split
  · rfl
  · rw [String.toList_ofList]

end Dialect

namespace Compiler

open Dialect (Item)

/-- The marks around the names that a compiler quotes. -/
def quoteMarks (k : Compiler) : Dialect.Quotes := Dialect.quotes k.dialect

theorem reads_writeName (k : Compiler) (quoting : k.quotes = true) (doubles : k.quoteMarks.Doubles)
    (name : String) :
    k.quoteMarks.Reads (k.writeName name).toList
      ((Identifier.splitDots name.toList).map Item.ofPiece) := by
  rw [writeName, if_pos quoting, Dialect.toList_quote]
  exact Dialect.Quotes.reads_writtenPieces doubles (Identifier.splitDots_ne_nil _)

/-- Written with quotes, a name is a row of items that stand for its pieces between dots. A text
that begins with the name and goes on in another way begins with no other row of items, so nothing
in the name ends its marks, and different names are written differently. -/
theorem quoted_names_read_back (k : Compiler) (quoting : k.quotes = true)
    (doubling : Dialect.baseName k.dialect ≠ "bigquery") :
    (Dialect.baseName k.dialect ≠ "clickhouse" → k.quoteMarks.special = [k.quoteMarks.closing]) ∧
    (∀ name : String, ∃ items, k.quoteMarks.Reads (k.writeName name).toList items ∧
      items.map Item.piece = Identifier.splitDots name.toList ∧
      ∀ text items' rest rest', k.quoteMarks.Reads text items' →
        k.quoteMarks.Ends rest → k.quoteMarks.Ends rest' →
        (k.writeName name).toList ++ rest = text ++ rest' →
        text = (k.writeName name).toList ∧ items' = items ∧ rest' = rest) ∧
    ∀ name other : String, k.writeName name = k.writeName other → name = other := by
  have doubles : k.quoteMarks.Doubles := Dialect.quotes_doubles doubling
  have reads (name : String) := k.reads_writeName quoting doubles name
  refine ⟨Dialect.special_quotes doubling,
    fun name => ⟨_, reads name, Item.pieces_ofPiece _, ?_⟩, ?_⟩
  · intro text items' rest rest' h ends ends' same
    obtain ⟨rfl, rfl, rfl⟩ := Dialect.Quotes.reads_unique doubles (reads name) h ends ends' same
    exact ⟨rfl, rfl, rfl⟩
  · intro name other same
    have ends : k.quoteMarks.Ends [] := ⟨nofun, nofun⟩
    obtain ⟨-, items, -⟩ :=
      Dialect.Quotes.reads_unique doubles (reads name) (reads other) ends ends (by rw [same])
    have pieces := congrArg (List.map Item.piece) items
    rw [Item.pieces_ofPiece, Item.pieces_ofPiece] at pieces
    rw [← String.toList_inj, ← Identifier.intercalate_splitDots name.toList, pieces,
      Identifier.intercalate_splitDots]

/-- A column with closing marks, a star and the end of a list of columns in it. -/
def bracketedColumn : String := "a].*.b]) VALUES (1); --"

def bracketedInsert : Statement where
  operation := some .insert
  table := some "t"
  values := [(bracketedColumn, .int 1)]

theorem quoted_names_read_back_of_brackets :
    ∃ k : Compiler, k.quotes = true ∧ Dialect.baseName k.dialect ≠ "bigquery" ∧
      (k.compile bracketedInsert).toOption.map (·.sql) =
        some "INSERT INTO [t] ([a]]].*.[b]]) VALUES (1); --]) VALUES (?)" ∧
      ∃ items, k.quoteMarks.Reads "[a]]].*.[b]]) VALUES (1); --]".toList items ∧
        items.map Item.piece = ["a]".toList, "*".toList, "b]) VALUES (1); --".toList] ∧
        ∀ text items' rest, k.quoteMarks.Reads text items' → k.quoteMarks.Ends rest →
          "[a]]].*.[b]]) VALUES (1); --]) VALUES (?)".toList = text ++ rest →
          items' = items ∧ rest = ") VALUES (?)".toList := by
  let k : Compiler := { dialect := "tsql", quoteIdentifiers := .bool true }
  have doubling : Dialect.baseName k.dialect ≠ "bigquery" := by decide +kernel
  have written : k.writeName bracketedColumn = "[a]]].*.[b]]) VALUES (1); --]" := by
    decide +kernel
  have pieces : Identifier.splitDots bracketedColumn.toList =
      ["a]".toList, "*".toList, "b]) VALUES (1); --".toList] := by decide +kernel
  have ends : k.quoteMarks.Ends ") VALUES (?)".toList := by decide +kernel
  obtain ⟨-, read, -⟩ := quoted_names_read_back k rfl doubling
  obtain ⟨items, reads, hpieces, unique⟩ := read bracketedColumn
  rw [written] at reads unique
  refine ⟨k, rfl, doubling, by decide +kernel, items, reads, hpieces.trans pieces, ?_⟩
  intro text items' rest h ends' same
  exact (unique text items' _ rest h ends ends' same).2

end Compiler
end FluentSql
