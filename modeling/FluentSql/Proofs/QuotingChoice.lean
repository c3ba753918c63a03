import FluentSql.Proofs.QuotedNames
import FluentSql.Proofs.WrittenNames

/-!
Compiling with quotes and without. Both texts are the same row of words, placeholders and names. A
word or a placeholder is written in one way; a name stands as it is in the one text and between
marks, part by part, in the other. No word, placeholder or name has a mark in it, so taking the
marks out of the quoted text leaves the other one.
-/

namespace FluentSql

namespace Dialect.Quotes

/-- A name between marks, part by part; a star stays bare, and nothing else is changed. -/
def around (q : Quotes) (name : String) : String :=
  ".".intercalate ((Identifier.parts name).map fun part =>
    if part = "*" then part else String.ofList (q.opening :: part.toList ++ [q.closing]))

def isMark (q : Quotes) (c : Char) : Bool := c == q.opening || c == q.closing

/-- A text without its marks. -/
def erase (q : Quotes) (text : String) : String := String.ofList (text.toList.filter (!q.isMark ·))

theorem erase_append (q : Quotes) (s t : String) : q.erase (s ++ t) = q.erase s ++ q.erase t := by
  rw [erase, String.toList_append, List.filter_append, String.ofList_append]
  rfl

/-- Where the separator is kept, parts are filtered one by one. -/
theorem filter_intercalate {keep : Char → Bool} (dot : keep '.' = true) (parts : List (List Char)) :
    (['.'].intercalate parts).filter keep = ['.'].intercalate (parts.map (List.filter keep)) := by
  induction parts with
  | nil => rfl
  | cons part parts ih =>
      cases parts with
      | nil => rw [List.map_singleton, List.intercalate_singleton, List.intercalate_singleton]
      | cons next parts =>
          rw [List.map_cons, List.map_cons, List.intercalate_cons_cons,
            List.intercalate_cons_cons, List.filter_append, List.filter_append, ih,
            List.filter_singleton, dot]
          rfl

theorem toList_around (q : Quotes) (name : String) : (q.around name).toList =
    ['.'].intercalate ((Identifier.splitDots name.toList).map fun part =>
      if part = ['*'] then part else q.opening :: part ++ [q.closing]) := by
  rw [around, String.toList_intercalate, Identifier.parts, List.map_map, List.map_map]
  refine congrArg _ (List.map_congr_left fun part _ => ?_)
  have star : String.ofList part = "*" ↔ part = ['*'] := String.ofList_inj
  simp only [Function.comp_apply, star]
  split
  · next same => rw [same]; rfl
  · rw [String.toList_ofList, String.toList_ofList]

theorem splitDots_quiet {name : String} (woven : Text.Woven name.toList) :
    ∀ part ∈ Identifier.splitDots name.toList, ∀ c ∈ part, Text.isHostile c = false :=
  fun _ hpart c hc => woven.quiet c ((Identifier.splitDots_infix hpart).subset hc)

/-- The marks and all that is not written as it is are hostile characters. -/
structure AreHostile (q : Quotes) : Prop where
  opening : Text.isHostile q.opening = true
  closing : Text.isHostile q.closing = true
  escaped : ∀ c ∈ q.special, Text.isHostile c = true

instance (q : Quotes) : Decidable q.AreHostile :=
  decidable_of_iff (Text.isHostile q.opening = true ∧ Text.isHostile q.closing = true ∧
      q.special.all Text.isHostile = true)
    ⟨fun ⟨opening, closing, escaped⟩ => ⟨opening, closing, List.all_eq_true.mp escaped⟩,
      fun h => ⟨h.opening, h.closing, List.all_eq_true.mpr h.escaped⟩⟩

variable {q : Quotes} (hostile : q.AreHostile)
include hostile

theorem isMark_quiet {c : Char} (quiet : Text.isHostile c = false) : q.isMark c = false := by
  refine Bool.or_eq_false_iff.mpr ⟨beq_eq_false_iff_ne.mpr ?_, beq_eq_false_iff_ne.mpr ?_⟩
  · rintro rfl
    exact Bool.false_ne_true (quiet.symm.trans hostile.opening)
  · rintro rfl
    exact Bool.false_ne_true (quiet.symm.trans hostile.closing)

theorem filter_quiet {cs : List Char} (quiet : ∀ c ∈ cs, Text.isHostile c = false) :
    cs.filter (!q.isMark ·) = cs :=
  List.filter_eq_self.mpr fun c hc => by rw [isMark_quiet hostile (quiet c hc)]; rfl

theorem erase_woven {text : String} (woven : Text.Woven text.toList) : q.erase text = text := by
  rw [erase, filter_quiet hostile woven.quiet, String.ofList_toList]

/-- A part without hostile characters is not changed between the marks. -/
theorem quotePart_quiet {part : List Char} (quiet : ∀ c ∈ part, Text.isHostile c = false) :
    quotePart q part = q.opening :: part ++ [q.closing] := by
  have kept : part.flatMap (fun c => (q.escaped.lookup c).getD [c]) = part := by
    induction part with
    | nil => rfl
    | cons c part ih =>
        obtain ⟨first, rest⟩ := List.forall_mem_cons.mp quiet
        have none : q.escaped.lookup c = none := by
          refine List.lookup_eq_none_iff.mpr fun entry hentry => bne_iff_ne.mpr ?_
          rintro rfl
          have special := hostile.escaped entry.1 (List.mem_map_of_mem hentry)
          exact Bool.false_ne_true (first.symm.trans special)
        rw [List.flatMap_cons, ih rest, none]
        rfl
  rw [quotePart, kept]

theorem filter_marked {part : List Char} (quiet : ∀ c ∈ part, Text.isHostile c = false) :
    (q.opening :: part ++ [q.closing]).filter (!q.isMark ·) = part := by
  have opening : q.isMark q.opening = true := by simp [isMark]
  have closing : q.isMark q.closing = true := by simp [isMark]
  simp [opening, closing, filter_quiet hostile quiet]

theorem erase_around {name : String} (woven : Text.Woven name.toList) :
    q.erase (q.around name) = name := by
  have dot : (!q.isMark '.') = true := by
    rw [isMark_quiet hostile (by decide)]
    rfl
  have parts : (Identifier.splitDots name.toList).map (fun part =>
      (if part = ['*'] then part else q.opening :: part ++ [q.closing]).filter (!q.isMark ·)) =
        Identifier.splitDots name.toList := by
    refine (List.map_congr_left fun part hpart => ?_).trans (List.map_id _)
    have quiet := splitDots_quiet woven part hpart
    split
    · exact filter_quiet hostile quiet
    · exact filter_marked hostile quiet
  rw [erase, toList_around, filter_intercalate dot, List.map_map]
  exact (congrArg _ ((congrArg _ parts).trans (Identifier.intercalate_splitDots _))).trans
    String.ofList_toList

/-- The marks are all that quoting adds to a name without hostile characters. -/
theorem toList_writtenPieces {name : String} (woven : Text.Woven name.toList) :
    ['.'].intercalate ((Identifier.splitDots name.toList).map q.writtenPiece) =
      (q.around name).toList := by
  rw [toList_around]
  refine congrArg _ (List.map_congr_left fun part hpart => ?_)
  rw [writtenPiece, quotePart_quiet hostile (splitDots_quiet woven part hpart)]
  split
  · next star => exact star.symm
  · rfl

end Dialect.Quotes

theorem Dialect.quotes_areHostile (dialect : String) : (quotes dialect).AreHostile := by
  simp only [quotes]
  split
  · decide
  · split
    · decide
    · split
      · decide +kernel
      · split <;> decide

theorem Dialect.quote_eq_around {name : String} (woven : Text.Woven name.toList)
    (dialect : String) : quote dialect name = (quotes dialect).around name := by
  rw [← String.toList_inj, toList_quote]
  exact Quotes.toList_writtenPieces (quotes_areHostile dialect) woven

/-- A stretch of a compiled text: one of the language's own texts, or a name. -/
inductive Segment where
  | own (text : String)
  | name (name : String)

namespace Segment

def name? : Segment → Option String
  | .name s => some s
  | .own _ => none

def plain : Segment → String
  | .own text => text
  | .name s => s

def quoted (q : Dialect.Quotes) : Segment → String
  | .own text => text
  | .name s => q.around s

end Segment

/-- How a piece is shown; a value by a placeholder. -/
inductive Piece.ShownAs (style : Style) : Piece → Segment → Prop
  | text (s : String) : ShownAs style (.text s) (.own s)
  | name (s : String) : ShownAs style (.name s) (.name s)
  | bound (v : Value) (n : Nat) :
      ShownAs style (.bound v) (.own (style.placeholder (Collector.numberedName n)))

/-- A row of words and placeholders with the given names in this order. -/
structure RowOf (style : Style) (names : List String) (row : List Segment) : Prop where
  names : row.filterMap Segment.name? = names
  own : ∀ text, .own text ∈ row →
    Word text ∨ ∃ n, text = style.placeholder (Collector.numberedName n)

/-- Two compilations of one row, with quotes and without. -/
structure SameButQuotes (q : Dialect.Quotes) (row : List Segment) (quoted plain : Compiled) :
    Prop where
  quotedSql : quoted.sql = String.join (row.map (Segment.quoted q))
  plainSql : plain.sql = String.join (row.map Segment.plain)
  erased : q.erase quoted.sql = plain.sql
  parameters : quoted.parameters = plain.parameters
  operation : quoted.operation = plain.operation
  table : quoted.table = plain.table

/-- The row of a counting form around the row of what it counts. -/
def Statement.countRow (s : Statement) (row : List Segment) : List Segment :=
  if s.isNested || s.isPaginated then
    .own "SELECT COUNT(*) AS aggregate FROM (" :: row ++ [.own ") AS aggregate_table"]
  else .own "SELECT " :: .own "COUNT(*) AS aggregate" :: row

/-- A segment from which the marks can be taken away. -/
def Segment.Woven : Segment → Prop
  | .own text => Text.Woven text.toList
  | .name s => Text.Woven s.toList

theorem Style.woven_placeholder (style : Style) (n : Nat) :
    Text.Woven (style.placeholder (Collector.numberedName n)).toList := by
  have name := Collector.woven_numberedName n
  cases style with
  | qmark => exact (by decide : Text.Woven "?".toList)
  | format => exact (by decide : Text.Woven "%s".toList)
  | named =>
      simp only [placeholder, String.toList_append]
      exact (by decide : Text.Woven ":".toList).append name
  | pyformat => exact .around (by decide) name (by decide)

theorem Piece.ShownAs.woven {style : Style} {p : Piece} {segment : Segment}
    (shown : p.ShownAs style segment) (woven : p.Woven) : segment.Woven := by
  cases shown with
  | text | name => exact woven
  | bound v n => exact style.woven_placeholder n

section

variable {style : Style} {ps qs : List Piece} {row : List Segment}

theorem woven_row (shown : List.Forall₂ (Piece.ShownAs style) ps row)
    (woven : ∀ p ∈ ps, p.Woven) : ∀ segment ∈ row, segment.Woven := by
  induction shown with
  | nil => exact List.forall_mem_nil _
  | cons first _ ih =>
      obtain ⟨here, rest⟩ := List.forall_mem_cons.mp woven
      exact List.forall_mem_cons.mpr ⟨first.woven here, ih rest⟩

/-- The language's own pieces are shown as words, placeholders and their names. -/
theorem rowOf_shown (shown : List.Forall₂ (Piece.ShownAs style) ps row)
    (own : ∀ p ∈ ps, p.IsOwn) : RowOf style (Piece.names ps) row := by
  induction shown with
  | nil => exact ⟨rfl, nofun⟩
  | cons first _ ih =>
      obtain ⟨here, rest⟩ := List.forall_mem_cons.mp own
      obtain ⟨names, words⟩ := ih rest
      cases first with
      | text s =>
          refine ⟨names, fun text htext => ?_⟩
          obtain same | later := List.mem_cons.mp htext
          · cases same
            exact .inl here
          · exact words text later
      | name s =>
          refine ⟨congrArg (s :: ·) names, fun text htext => ?_⟩
          obtain same | later := List.mem_cons.mp htext
          · cases same
          · exact words text later
      | bound v n =>
          refine ⟨names, fun text htext => ?_⟩
          obtain same | later := List.mem_cons.mp htext
          · cases same
            exact .inr ⟨n, rfl⟩
          · exact words text later

theorem shown_append (shown : List.Forall₂ (Piece.ShownAs style) (ps ++ qs) row) :
    ∃ front back, row = front ++ back ∧ List.Forall₂ (Piece.ShownAs style) ps front ∧
      List.Forall₂ (Piece.ShownAs style) qs back := by
  induction ps generalizing row with
  | nil => exact ⟨[], row, rfl, .nil, shown⟩
  | cons p ps ih =>
      obtain ⟨segment, rest, first, later, rfl⟩ := List.forall₂_cons_left_iff.mp shown
      obtain ⟨front, back, rfl, hfront, hback⟩ := ih later
      exact ⟨segment :: front, back, rfl, .cons first hfront, hback⟩

end

theorem Dialect.Quotes.erase_row {q : Quotes} (hostile : q.AreHostile) {row : List Segment}
    (woven : ∀ segment ∈ row, segment.Woven) :
    q.erase (String.join (row.map (Segment.quoted q))) = String.join (row.map Segment.plain) := by
  induction row with
  | nil => rfl
  | cons segment row ih =>
      obtain ⟨first, rest⟩ := List.forall_mem_cons.mp woven
      rw [List.map_cons, List.map_cons, String.join_cons, String.join_cons, erase_append, ih rest]
      cases segment with
      | own text => rw [Segment.quoted, erase_woven hostile first]; rfl
      | name s => rw [Segment.quoted, erase_around hostile first]; rfl

/-- The row of a text around a SELECT. -/
theorem shown_around {s : Statement} (vetted : s.Vetted False) (projects : s.ProjectsNames)
    {style : Style} {head tail dialect : String} {row : List Segment}
    (shown : List.Forall₂ (Piece.ShownAs style)
      (.text head :: (s.selectPieces dialect ++ [.text tail])) row) :
    ∃ inner, RowOf style (s.namesFor .select) inner ∧
      row = .own head :: inner ++ [.own tail] := by
  obtain ⟨_, rest, opening, later, rfl⟩ := List.forall₂_cons_left_iff.mp shown
  obtain ⟨inner, _, rfl, hinner, last⟩ := shown_append later
  obtain ⟨_, _, closing, nothing, rfl⟩ := List.forall₂_cons_left_iff.mp last
  cases nothing
  cases opening
  cases closing
  have row := rowOf_shown hinner (Statement.selectPieces_own vetted projects dialect)
  rw [Statement.names_selectPieces projects] at row
  exact ⟨inner, row, rfl⟩

/-- The row of a counting form has the row of what it counts inside. -/
theorem shown_countPieces {k : Compiler} {s : Statement} (vetted : s.Vetted False)
    (projects : s.ProjectsNames) {row : List Segment}
    (shown : List.Forall₂ (Piece.ShownAs k.style) (k.countPieces s) row) :
    ∃ inner, RowOf k.style s.countedNames inner ∧ row = s.countRow inner := by
  have unordered : ({ s with ordering := [] } : Statement).Vetted False :=
    { vetted with ordering := List.forall_mem_nil _ }
  have condition : (!s.grouping.isEmpty || !s.having.isEmpty || s.distinct || s.isPaginated) =
      (s.isNested || s.isPaginated) := rfl
  rw [Compiler.countPieces, condition] at shown
  rw [Statement.countedNames]
  cases paginated : s.isPaginated with
  | true =>
      simp only [paginated, Bool.or_true, if_true] at shown ⊢
      obtain ⟨inner, names, rfl⟩ := shown_around vetted projects shown
      refine ⟨inner, names, ?_⟩
      rw [Statement.countRow, paginated, Bool.or_true]
      rfl
  | false =>
      cases nested : s.isNested with
      | true =>
          simp only [paginated, nested, Bool.or_false, if_true, Bool.false_eq_true,
            if_false] at shown ⊢
          obtain ⟨inner, names, rfl⟩ := shown_around unordered projects shown
          have same : ({ s with ordering := [] } : Statement).namesFor .select =
              s.expressionNames ++ s.bodyNames := List.append_nil _
          rw [same] at names
          refine ⟨inner, names, ?_⟩
          rw [Statement.countRow, nested]
          rfl
      | false =>
          simp only [paginated, nested, Bool.or_false, Bool.false_eq_true, if_false] at shown ⊢
          have single : s.selectWord = "SELECT " := by
            have distinct : s.distinct = false := (Bool.or_eq_false_iff.mp nested).2
            rw [Statement.selectWord, distinct]
            rfl
          have pieces : Statement.selectPieces k.dialect
              { s with columns := ["COUNT(*) AS " ++ Compiler.countColumn], ordering := [] } =
              .text "SELECT " :: .text "COUNT(*) AS aggregate" :: s.bodyPieces := by
            rw [Statement.selectPieces_eq]
            change .text s.selectWord :: ([.text "COUNT(*) AS aggregate"] ++ s.bodyPieces ++ [] ++
              Statement.pagingPieces (Dialect.paging k.dialect) false s.limit s.offset) = _
            rw [single, Statement.pagingPieces_unpaged paginated, List.append_nil, List.append_nil]
            rfl
          rw [pieces] at shown
          obtain ⟨_, _, word, later, rfl⟩ := List.forall₂_cons_left_iff.mp shown
          obtain ⟨_, inner, column, body, rfl⟩ := List.forall₂_cons_left_iff.mp later
          cases word
          cases column
          have names := rowOf_shown body (Statement.bodyPieces_own vetted)
          rw [Statement.names_bodyPieces] at names
          refine ⟨inner, names, ?_⟩
          rw [Statement.countRow, nested, paginated]
          rfl

namespace Compiler

variable (k : Compiler)

def quotingBy (choice : Value) : Compiler := { k with quoteIdentifiers := choice }

variable {k} {reserved : List String} {on off : Value} (hon : on.truthy = true)
  (hoff : off.truthy = false)
include hon hoff

theorem writePiece_quoting {p : Piece} (woven : p.Woven) (c : Collector) :
    Agree (fun a b => ∃ segment, p.ShownAs k.style segment ∧
        a.1 = segment.quoted k.quoteMarks ∧ b.1 = segment.plain ∧ a.2 = b.2)
      ((k.quotingBy on).writePiece reserved c p) ((k.quotingBy off).writePiece reserved c p) := by
  cases p with
  | text s => exact ⟨.own s, .text s, rfl, rfl, rfl⟩
  | name s =>
      refine ⟨.name s, .name s, ?_, ?_, rfl⟩
      · exact (if_pos hon).trans (Dialect.quote_eq_around woven k.dialect)
      · exact if_neg (Bool.eq_false_iff.mp hoff)
  | bound v =>
      have shown : ∃ n, (c.bind k.style reserved v).1 =
          k.style.placeholder (Collector.numberedName n) := by
        cases k.style with
        | qmark | format => exact ⟨0, rfl⟩
        | named | pyformat => exact ⟨c.nextNumber reserved, rfl⟩
      obtain ⟨n, placeholder⟩ := shown
      exact ⟨.own _, .bound v n, placeholder, placeholder, rfl⟩
  | fragment => exact woven.elim
  | halt e => exact Agree.error e

theorem writeFrom_quoting {ps : List Piece} (woven : ∀ p ∈ ps, p.Woven) (c : Collector) :
    Agree (fun a b => ∃ row, List.Forall₂ (Piece.ShownAs k.style) ps row ∧
        a.1 = String.join (row.map (Segment.quoted k.quoteMarks)) ∧
        b.1 = String.join (row.map Segment.plain) ∧ a.2 = b.2)
      ((k.quotingBy on).writeFrom reserved c ps) ((k.quotingBy off).writeFrom reserved c ps) := by
  induction ps generalizing c with
  | nil => exact ⟨[], .nil, rfl, rfl, rfl⟩
  | cons p ps ih =>
      obtain ⟨first, rest⟩ := List.forall_mem_cons.mp woven
      refine (writePiece_quoting hon hoff first c).bind fun (head, c₁) (head', c₁') related => ?_
      obtain ⟨segment, shown, quoted, plain, same⟩ := related
      obtain rfl : c₁ = c₁' := same
      refine (ih rest c₁).bind fun (tail, c₂) (tail', c₂') related => ?_
      obtain ⟨row, shownRest, quotedRest, plainRest, same⟩ := related
      refine ⟨segment :: row, .cons shown shownRest, ?_, ?_, same⟩
      · rw [List.map_cons, String.join_cons, ← quoted, ← quotedRest]
      · rw [List.map_cons, String.join_cons, ← plain, ← plainRest]

theorem write_quoting {ps : List Piece} (woven : ∀ p ∈ ps, p.Woven) :
    Agree (fun a b => ∃ row, List.Forall₂ (Piece.ShownAs k.style) ps row ∧
        a.1 = String.join (row.map (Segment.quoted k.quoteMarks)) ∧
        b.1 = String.join (row.map Segment.plain) ∧ a.2 = b.2)
      ((k.quotingBy on).write reserved ps) ((k.quotingBy off).write reserved ps) := by
  refine (writeFrom_quoting hon hoff woven {}).bind fun a b ⟨row, shown, quoted, plain, same⟩ => ?_
  exact ⟨row, shown, quoted, plain, congrArg (Collector.parameters k.style) same⟩

/-- What is written for pieces of the language's own is the same but for quotes. -/
theorem written_quoting {ps : List Piece} (woven : ∀ p ∈ ps, p.Woven)
    (operation table : Option String) :
    Agree (fun quoted plain => ∃ row, List.Forall₂ (Piece.ShownAs k.style) ps row ∧
        SameButQuotes k.quoteMarks row quoted plain)
      (do
        let (sql, parameters) ← (k.quotingBy on).write reserved ps
        .ok (⟨sql, parameters, operation, table⟩ : Compiled))
      (do
        let (sql, parameters) ← (k.quotingBy off).write reserved ps
        .ok (⟨sql, parameters, operation, table⟩ : Compiled)) := by
  refine (write_quoting hon hoff woven).bind fun a b ⟨row, shown, quoted, plain, same⟩ => ?_
  refine ⟨row, shown, quoted, plain, ?_, same, rfl, rfl⟩
  rw [quoted, plain]
  exact Dialect.Quotes.erase_row (Dialect.quotes_areHostile k.dialect) (woven_row shown woven)

theorem compile_quoting {s : Statement} (structured : s.Structured) (projects : s.ProjectsNames) :
    Agree (fun quoted plain => ∃ row, RowOf k.style s.writtenNames row ∧
        SameButQuotes k.quoteMarks row quoted plain)
      ((k.quotingBy on).compile s) ((k.quotingBy off).compile s) := by
  have rules (choice : Value) (operation : Operation) :
      s.piecesFor (k.quotingBy choice) operation = s.piecesFor k operation := by
    cases operation <;> rfl
  cases held : s.operation with
  | none =>
      simp only [compile, structured.text, held]
      exact Agree.error _
  | some operation =>
      simp only [compile, structured.text, held, rules]
      refine (Agree.same _).bind fun _ _ _ => ?_
      cases pieces : s.piecesFor k operation with
      | error e => exact Agree.error e
      | ok ps =>
          have woven : ∀ p ∈ ps, p.Woven := fun p hp =>
            structured.woven_piece (Statement.origins_piecesFor pieces p hp)
          refine (written_quoting hon hoff woven (some operation.text) s.table).imp ?_
          rintro quoted plain ⟨row, shown, same⟩
          have own := rowOf_shown shown (Statement.piecesFor_own structured.vetted projects pieces)
          rw [Statement.names_piecesFor projects pieces] at own
          refine ⟨row, ?_, same⟩
          rw [Statement.writtenNames, held]
          exact own

theorem compileCount_quoting {s : Statement} (structured : s.Structured)
    (projects : s.ProjectsNames) :
    Agree (fun quoted plain => ∃ row, RowOf k.style s.countedNames row ∧
        SameButQuotes k.quoteMarks (s.countRow row) quoted plain)
      ((k.quotingBy on).compileCount s) ((k.quotingBy off).compileCount s) := by
  have given : s.isRaw = false := by
    rw [Statement.isRaw, structured.text]
    rfl
  have counted (choice : Value) : (k.quotingBy choice).countPieces s = k.countPieces s := rfl
  simp only [compileCount, given, counted]
  cases s.operation.filter (· ≠ .select) with
  | some operation => exact Agree.error _
  | none =>
      refine (Agree.same _).bind fun _ _ _ => ?_
      refine (written_quoting hon hoff (countPieces_woven structured) _ s.table).imp ?_
      rintro quoted plain ⟨_, shown, same⟩
      obtain ⟨inner, row, rfl⟩ := shown_countPieces structured.vetted projects shown
      exact ⟨inner, row, same⟩

end Compiler

/-- A statement that structured calls led to fails with quotes and without alike, or both texts are
one row of words, placeholders and the names of the statement in order. The names are all that is
written in two ways: between marks, part by part, and as they are. -/
theorem Compiler.quoting_changes_only_quotes (k : Compiler) {on off : Value}
    (hon : on.truthy = true) (hoff : off.truthy = false) {s : Statement}
    (built : s.Built (·.isStructured = true)) :
    Agree (fun quoted plain => ∃ row, RowOf k.style s.writtenNames row ∧
        SameButQuotes k.quoteMarks row quoted plain)
      ((k.quotingBy on).compile s) ((k.quotingBy off).compile s) ∧
    Agree (fun quoted plain => ∃ row, RowOf k.style s.countedNames row ∧
        SameButQuotes k.quoteMarks (s.countRow row) quoted plain)
      ((k.quotingBy on).compileCount s) ((k.quotingBy off).compileCount s) :=
  ⟨compile_quoting hon hoff built.structured built.projectsNames,
    compileCount_quoting hon hoff built.structured built.projectsNames⟩

/-- The posts of users, by calls. -/
def joinedStatement : Statement :=
  let table := (Call.apply {} (.table (.text "users u"))).1
  let projected := (Call.apply table (.select [.text "u.id, *"])).1
  (Call.apply projected
    (.join .left (.text "posts AS p") (.text "u.id") (.text "=") (.text "p.user_id"))).1

theorem Compiler.quoting_changes_only_quotes_of_join :
    (Value.int 1 : Value).truthy = true ∧ (Value.none : Value).truthy = false ∧
      joinedStatement.Built (·.isStructured = true) ∧
      joinedStatement.writtenNames = ["u.id", "users", "u", "posts", "p", "u.id", "p.user_id"] ∧
      ∃ quoted plain,
        (quotingBy { dialect := "tsql" } (.int 1)).compile joinedStatement = .ok quoted ∧
        (quotingBy { dialect := "tsql" } .none).compile joinedStatement = .ok plain ∧
        quoted.sql = "SELECT [u].[id], * FROM [users] AS [u] LEFT JOIN [posts] AS [p] " ++
          "ON [u].[id] = [p].[user_id]" ∧
        (quoteMarks { dialect := "tsql" }).erase quoted.sql = plain.sql ∧
        quoted.parameters = plain.parameters := by
  have built : joinedStatement.Built (·.isStructured = true) :=
    .call (.call (.call .new (by decide +kernel)) (by decide +kernel)) (by decide +kernel)
  have text : ((quotingBy { dialect := "tsql" } (.int 1)).compile joinedStatement).toOption.map
      (·.sql) = some ("SELECT [u].[id], * FROM [users] AS [u] LEFT JOIN [posts] AS [p] " ++
        "ON [u].[id] = [p].[user_id]") := by decide +kernel
  obtain ⟨c, compiled, sql⟩ := Option.map_eq_some_iff.mp text
  have on : (Value.int 1 : Value).truthy = true := rfl
  have off : (Value.none : Value).truthy = false := rfl
  obtain ⟨agree, -⟩ := quoting_changes_only_quotes { dialect := "tsql" } on off built
  refine ⟨on, off, built, by decide +kernel, ?_⟩
  obtain ⟨e, failed, -⟩ | ⟨quoted, plain, hquoted, hplain, row, -, same⟩ := agree.cases
  · rw [failed] at compiled
    cases compiled
  · rw [hquoted] at compiled
    cases compiled
    exact ⟨_, plain, hquoted, hplain, sql, same.erased, same.parameters⟩

end FluentSql
