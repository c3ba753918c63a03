import FluentSql.Proofs.ClauseOrder
import FluentSql.Proofs.Compilable

/-!
Slices of rows. A limit and an offset ask for a stretch of the rows, and the text that is written
for them denotes this stretch: it is read back by the form of the dialect. Where settings stand
after the name of a dialect that has a form of its own, the general form is written instead; it is
not read back where the own form has another way to ask for the stretch. The pages of a fixed size
cover the rows, each row once.
-/

namespace FluentSql

namespace Text

/-- Words, each after a blank. -/
def spaced (words : List String) : String := String.join (words.map (" " ++ ·))

/-- A text that is read as one word. -/
def IsWord (word : String) : Prop :=
  word.toList ≠ [] ∧ ∀ c ∈ word.toList, isBlank c = false

instance (word : String) : Decidable (IsWord word) :=
  decidable_of_iff (word.toList ≠ [] ∧ word.toList.all (fun c => !isBlank c) = true)
    (and_congr_right fun _ => by simp)

theorem words_spaced {ws : List String} (given : ∀ word ∈ ws, IsWord word) :
    words (spaced ws) = ws := by
  have chars : wordChars (spaced ws).toList = ws.map String.toList := by
    induction ws with
    | nil => rfl
    | cons word ws ih =>
        obtain ⟨⟨some, clean⟩, others⟩ := List.forall_mem_cons.mp given
        have ends : (spaced ws).toList.head?.all isBlank = true := by
          cases ws with
          | nil => rfl
          | cons next ws => simp [spaced, isBlank]
        have first : (spaced (word :: ws)).toList =
            ' ' :: (word.toList ++ (spaced ws).toList) := by
          simp [spaced, String.toList_append]
        rw [first, wordChars_blank rfl, wordChars_append some clean ends, ih others,
          List.map_cons]
  rw [words, chars, List.map_map]
  exact List.map_id'' (fun word => String.ofList_toList) ws

theorem isDigit_of_mem_repr {n : Nat} {c : Char} (h : c ∈ n.repr.toList) : c.isDigit = true := by
  rw [Nat.toList_repr] at h
  exact Nat.isDigit_of_mem_toDigits (by decide) (by decide) h

theorem isWord_number (n : Nat) : IsWord (toString n) := by
  have digits : n.repr.toList ≠ [] := by
    rw [Nat.toList_repr]
    exact Nat.toDigits_ne_nil
  refine ⟨digits, fun c hc => Identifier.isNameChar_not_blank ?_⟩
  have digit : c.isDigit = true := isDigit_of_mem_repr hc
  simp [Identifier.isNameChar, TableReference.isPartChar, Identifier.isPartChar, Char.isAlphanum,
    digit]

end Text

/-- A stretch of the rows: how many come before it, and how many it has when that is bounded. -/
structure Slice where
  limit : Option Nat
  offset : Nat
deriving DecidableEq, Repr

namespace Slice

def Shows (slice : Slice) (row : Nat) : Prop :=
  slice.offset ≤ row ∧ ∀ n ∈ slice.limit, row < slice.offset + n

/-- The number that a word gives; all its characters are digits. -/
def number? (word : String) : Option Nat :=
  if word.toList.all Char.isDigit then word.toNat? else none

/-- The limit that a word gives; one word may stand for no limit. -/
def limit? (unbounded : Option String) (word : String) : Option (Option Nat) :=
  if unbounded = some word then some none else (number? word).map some

/-- A limit, an offset, or both. A word may stand for no limit, where a limit stands alone and where
an offset follows; where one may precede an offset, an offset cannot stand alone. -/
def ofLimitOffset (alone before : Option String) : List String → Option Slice
  | ["LIMIT", n] => do some ⟨← limit? alone n, 0⟩
  | ["OFFSET", m] => if before.isSome then none else do some ⟨none, ← number? m⟩
  | ["LIMIT", n, "OFFSET", m] => do some ⟨← limit? before n, ← number? m⟩
  | _ => none

/-- An offset, with the number of rows to fetch after it or without. -/
def ofOffsetFetch : List String → Option Slice
  | ["OFFSET", m, "ROWS"] => do some ⟨none, ← number? m⟩
  | ["OFFSET", m, "ROWS", "FETCH", "NEXT", n, "ROWS", "ONLY"] => do
      some ⟨some (← number? n), ← number? m⟩
  | _ => none

/-- The limit that stands for none before an offset where a limit has to be a number. -/
def greatest : Nat := 18446744073709551615

/-- The slice that words denote in the dialect of a name. -/
def readWords (name : String) (words : List String) : Option Slice :=
  if name = "tsql" then ofOffsetFetch words
  else if name = "sqlite" then ofLimitOffset (some "-1") (some "-1") words
  else if name = "mysql" then ofLimitOffset none (some greatest.repr) words
  else ofLimitOffset none none words

/-- The slice that a text denotes in a dialect, whatever settings follow the dialect's name. -/
def read (dialect text : String) : Option Slice :=
  readWords (Dialect.baseName dialect) (Text.words text)

end Slice

namespace Dialect

/-- The dialects with a form of their own for a limit and an offset. -/
def formedNames : List String := ["tsql", "sqlite", "mysql"]

/-- The form that is written is that of the dialect: its name stands alone, or it has none of its
own. -/
def KeepsForm (dialect : String) : Prop :=
  baseName dialect = dialect ∨ baseName dialect ∉ formedNames

theorem baseName_formed {name : String} (formed : name ∈ formedNames) : baseName name = name := by
  simp only [formedNames, List.mem_cons, List.not_mem_nil, or_false] at formed
  obtain rfl | rfl | rfl := formed <;> rfl

theorem paging_unformed {name : String} (unformed : name ∉ formedNames) :
    paging name = .limit none := by
  simp only [formedNames, List.mem_cons, List.not_mem_nil, or_false, not_or] at unformed
  obtain ⟨tsql, sqlite, mysql⟩ := unformed
  rw [paging, if_neg tsql, if_neg sqlite, if_neg mysql]

theorem KeepsForm.paging_eq {dialect : String} (keeps : KeepsForm dialect) :
    paging dialect = paging (baseName dialect) := by
  obtain alone | unformed := keeps
  · rw [alone]
  · have other : dialect ∉ formedNames := fun formed => by
      rw [baseName_formed formed] at unformed
      exact unformed formed
    rw [paging_unformed unformed, paging_unformed other]

/-- A dialect whose form is lost is written in the general form. -/
theorem paging_of_lost {dialect : String} (lost : ¬ KeepsForm dialect) :
    paging dialect = .limit none :=
  paging_unformed fun formed => lost (.inl (baseName_formed formed))

end Dialect

namespace Statement

def slice (s : Statement) : Slice := ⟨s.limit, s.offset.getD 0⟩

def unpaged (s : Statement) : Statement := { s with limit := none, offset := none }

/-- The ordering that is written where a limit or an offset cannot stand without one. -/
def generatedOrdering (dialect : String) (s : Statement) : String :=
  if dialect = "tsql" ∧ s.isPaginated = true ∧ s.ordering.isEmpty = true then
    " ORDER BY (SELECT NULL)"
  else ""

/-- The words of limit and offset. -/
def pageWords (paging : Dialect.Paging) (limit offset : Option Nat) : List String :=
  if limit.isNone ∧ offset.isNone then []
  else match paging with
    | .fetch => "OFFSET" :: toString (offset.getD 0) :: "ROWS" ::
        limit.elim [] fun n => ["FETCH", "NEXT", toString n, "ROWS", "ONLY"]
    | .limit unbounded => ((limit.map toString).or unbounded).elim [] (["LIMIT", ·]) ++
        offset.elim [] fun m => ["OFFSET", toString m]

theorem paging_eq_fetch {dialect : String} :
    Dialect.paging dialect = .fetch ↔ dialect = "tsql" := by
  by_cases tsql : dialect = "tsql"
  · rw [Dialect.paging, if_pos tsql]
    exact iff_of_true rfl tsql
  · rw [Dialect.paging, if_neg tsql]
    refine iff_of_false (fun fetch => ?_) tsql
    split at fetch
    · cases fetch
    · split at fetch <;> cases fetch

theorem numberPieces_writable {n : Nat} (short : Text.writable n = true) (keyword : String) :
    numberPieces keyword n = [.text (keyword ++ toString n)] := by
  rw [numberPieces, if_pos short]

theorem plainText_pagingPieces (k : Compiler) {s : Statement} (paged : s.Paged) :
    String.join ((pagingPieces (Dialect.paging k.dialect) (!s.ordering.isEmpty) s.limit
        s.offset).map (Piece.plainText k)) =
      s.generatedOrdering k.dialect ++
        Text.spaced (pageWords (Dialect.paging k.dialect) s.limit s.offset) := by
  have zero : Text.writable 0 = true := by decide +kernel
  simp only [generatedOrdering, ← paging_eq_fetch, isPaginated]
  rw [← String.toList_inj]
  generalize Dialect.paging k.dialect = paging
  generalize s.ordering.isEmpty = unordered
  cases limit : s.limit with
  | none =>
      cases offset : s.offset with
      | none => cases paging <;> rfl
      | some m =>
          have offsets := numberPieces_writable (paged.2 m offset)
          unfold pagingPieces
          cases paging with
          | fetch => cases unordered <;> simp [offsets, pageWords, Text.spaced, Piece.plainText]
          | limit unbounded =>
              cases unbounded <;> simp [offsets, pageWords, Text.spaced, Piece.plainText]
  | some n =>
      have limits := numberPieces_writable (paged.1 n limit)
      cases offset : s.offset with
      | none =>
          unfold pagingPieces
          cases paging with
          | fetch =>
              cases unordered <;>
                simp [limits, numberPieces_writable zero, pageWords, Text.spaced, Piece.plainText]
          | limit unbounded => simp [limits, pageWords, Text.spaced, Piece.plainText]
      | some m =>
          have offsets := numberPieces_writable (paged.2 m offset)
          unfold pagingPieces
          cases paging with
          | fetch =>
              cases unordered <;>
                simp [limits, offsets, pageWords, Text.spaced, Piece.plainText]
          | limit unbounded => simp [limits, offsets, pageWords, Text.spaced, Piece.plainText]

theorem pageWords_isWord {paging : Dialect.Paging}
    (unbounded : ∀ stand, paging = .limit (some stand) → Text.IsWord stand)
    (limit offset : Option Nat) : ∀ word ∈ pageWords paging limit offset, Text.IsWord word := by
  have fixed : ∀ word ∈ ["LIMIT", "OFFSET", "ROWS", "FETCH", "NEXT", "ONLY"], Text.IsWord word := by
    decide
  have number := Text.isWord_number
  simp only [List.forall_mem_cons, Nat.toString_eq_repr] at fixed number
  obtain ⟨limitWord, offsetWord, rows, fetch, next, only, -⟩ := fixed
  cases paging with
  | fetch => cases limit <;> cases offset <;> simp [pageWords, *]
  | limit stand =>
      cases limit <;> cases offset <;> cases stand <;> simp [pageWords, *]

end Statement

namespace Slice

theorem number?_repr (n : Nat) : number? n.repr = some n := by
  have digits : n.repr.toList.all Char.isDigit = true :=
    List.all_eq_true.mpr fun _ hc => Text.isDigit_of_mem_repr hc
  rw [number?, if_pos digits, Nat.toNat?_repr]

theorem limit?_number {unbounded : Option String} {n : Nat} (other : unbounded ≠ some n.repr) :
    limit? unbounded n.repr = some (some n) := by
  rw [limit?, if_neg other, number?_repr]
  rfl

variable {limit offset : Option Nat}

theorem number_ne_negative (n : Nat) : some "-1" ≠ some n.repr := by
  intro same
  have sign : '-' ∈ n.repr.toList := by
    rw [← Option.some.inj same]
    decide
  cases Text.isDigit_of_mem_repr sign

theorem stands_isWord (name : String) :
    ∀ stand, Dialect.paging name = .limit (some stand) → Text.IsWord stand := by
  intro stand h
  rw [Dialect.paging] at h
  split at h
  · cases h
  · split at h
    · cases h
      decide
    · split at h <;> cases h
      decide

section

variable (given : limit.isSome = true ∨ offset.isSome = true)

include given

theorem ofOffsetFetch_pageWords :
    ofOffsetFetch (Statement.pageWords .fetch limit offset) = some ⟨limit, offset.getD 0⟩ := by
  cases limit <;> cases offset <;> simp [Statement.pageWords, ofOffsetFetch, number?_repr] at *

theorem ofLimitOffset_pageWords {alone before : Option String}
    (single : offset = none → ∀ n ∈ limit, alone ≠ some n.repr)
    (double : offset.isSome = true → ∀ n ∈ limit, before ≠ some n.repr) :
    ofLimitOffset alone before (Statement.pageWords (.limit before) limit offset) =
      some ⟨limit, offset.getD 0⟩ := by
  cases limit with
  | none =>
      cases offset with
      | none => simp at given
      | some m => cases before <;> simp [Statement.pageWords, ofLimitOffset, limit?, number?_repr]
  | some n =>
      cases offset with
      | none => simp [Statement.pageWords, ofLimitOffset, limit?_number (single rfl n rfl)]
      | some m =>
          simp [Statement.pageWords, ofLimitOffset, limit?_number (double rfl n rfl), number?_repr]

/-- The words for a limit and an offset are read back in the dialect that they are written for. -/
theorem readWords_pageWords {name : String}
    (bounded : name = "mysql" → offset.isSome = true → limit ≠ some greatest) :
    readWords name (Statement.pageWords (Dialect.paging name) limit offset) =
      some ⟨limit, offset.getD 0⟩ := by
  have absent (n : Nat) : none ≠ some n.repr := (Option.some_ne_none _).symm
  rw [readWords, Dialect.paging]
  split
  · exact ofOffsetFetch_pageWords given
  · split
    · exact ofLimitOffset_pageWords given (fun _ n _ => number_ne_negative n)
        fun _ n _ => number_ne_negative n
    · split
      · next mysql =>
          refine ofLimitOffset_pageWords given (fun _ n _ => absent n) fun follows n hn same => ?_
          have number : greatest = n := Nat.repr_inj.mp (Option.some.inj same)
          exact bounded mysql follows (number ▸ hn)
      · exact ofLimitOffset_pageWords given (fun _ n _ => absent n) (fun _ n _ => absent n)

/-- The general form is read back in a dialect with a form of its own only where the two are the
same: where a limit is given, and the own form begins with it. -/
theorem readWords_general {name : String} (formed : name ∈ Dialect.formedNames)
    (bounded : name = "mysql" → offset.isSome = true → limit ≠ some greatest) :
    readWords name (Statement.pageWords (.limit none) limit offset) =
        some ⟨limit, offset.getD 0⟩ ↔ name ≠ "tsql" ∧ limit.isSome = true := by
  simp only [Dialect.formedNames, List.mem_cons, List.not_mem_nil, or_false] at formed
  obtain rfl | rfl | rfl := formed
  · refine iff_of_false (fun read => ?_) fun apart => apart.1 rfl
    cases limit <;> cases offset <;>
      simp [readWords, Statement.pageWords, ofOffsetFetch] at read given
  · cases limit with
    | none =>
        cases offset with
        | none => simp at given
        | some m => simp [readWords, Statement.pageWords, ofLimitOffset]
    | some n =>
        refine iff_of_true ?_ ⟨by decide, rfl⟩
        cases offset <;> simp [readWords, Statement.pageWords, ofLimitOffset,
          limit?_number (number_ne_negative n), number?_repr]
  · cases limit with
    | none =>
        cases offset with
        | none => simp at given
        | some m => simp [readWords, Statement.pageWords, ofLimitOffset]
    | some n =>
        refine iff_of_true ?_ ⟨by decide, rfl⟩
        cases offset with
        | none => simp [readWords, Statement.pageWords, ofLimitOffset, limit?_number]
        | some m =>
            have other : some greatest.repr ≠ some n.repr := fun same =>
              bounded rfl rfl (congrArg some (Nat.repr_inj.mp (Option.some.inj same)).symm)
            simp [readWords, Statement.pageWords, ofLimitOffset, limit?_number other, number?_repr]

/-- The text for a limit and an offset is read back where the dialect keeps its form, and elsewhere
as far as the general form is that of the dialect. -/
theorem read_pageWords_iff {dialect : String}
    (bounded : Dialect.baseName dialect = "mysql" → offset.isSome = true → limit ≠ some greatest) :
    read dialect (Text.spaced (Statement.pageWords (Dialect.paging dialect) limit offset)) =
        some ⟨limit, offset.getD 0⟩ ↔
      Dialect.KeepsForm dialect ∨
        Dialect.baseName dialect ≠ "tsql" ∧ limit.isSome = true := by
  rw [read, Text.words_spaced (Statement.pageWords_isWord (stands_isWord dialect) limit offset)]
  by_cases keeps : Dialect.KeepsForm dialect
  · rw [keeps.paging_eq]
    exact iff_of_true (readWords_pageWords given bounded) (.inl keeps)
  · rw [Dialect.paging_of_lost keeps, or_iff_right keeps]
    exact readWords_general given (not_not.mp fun unformed => keeps (.inr unformed)) bounded

end

end Slice

namespace Compiler

variable {k : Compiler} {reserved : List String}

/-- Fixed text at the end is written after everything else, whatever that binds. -/
theorem write_append_fixed (ps : List Piece) {qs : List Piece}
    (plain : qs.all Piece.isPlain = true) (fixed : qs.all Piece.isFixed = true) :
    k.write reserved (ps ++ qs) = (k.write reserved ps).map fun (sql, parameters) =>
      (sql ++ String.join (qs.map (Piece.plainText k)), parameters) := by
  have last (c : Collector) : k.writeFrom reserved c qs =
      .ok (String.join (qs.map (Piece.plainText k)), c) := by
    obtain ⟨sql, written⟩ : ∃ sql, k.writeFrom reserved c qs = .ok (sql, c) :=
      writeFrom_fixed fixed
    rw [written, (writeFrom_plain plain written).1]
  rw [write, write, writeFrom_append]
  cases k.writeFrom reserved {} ps with
  | error e => rfl
  | ok first =>
      simp only [bind, Except.bind, last]
      rfl

theorem compile_select {s : Statement} (given : s.isRaw = false)
    (select : s.operation = some .select) :
    k.compile s = (do
      s.requireTable
      let (sql, parameters) ← k.write s.reservedNames (s.selectPieces k.dialect)
      .ok ⟨sql, parameters, some Operation.select.text, s.table⟩) := by
  have raw : s.rawSql = none := by simpa [Statement.isRaw] using given
  rw [compile, raw, select]
  rfl

/-- A limit and an offset add their text at the end of a SELECT. -/
theorem compile_paged {s : Statement} (given : s.isRaw = false)
    (select : s.operation = some .select) (paged : s.Paged) :
    k.compile s = (k.compile s.unpaged).map fun c =>
      { c with sql := c.sql ++ (s.generatedOrdering k.dialect ++
        Text.spaced (Statement.pageWords (Dialect.paging k.dialect) s.limit s.offset)) } := by
  have apart : s.selectPieces k.dialect = s.unpaged.selectPieces k.dialect ++
      Statement.pagingPieces (Dialect.paging k.dialect) (!s.ordering.isEmpty) s.limit s.offset := by
    rw [Statement.selectPieces, Statement.selectPieces,
      Statement.pagingPieces_unpaged (s := s.unpaged) rfl, List.append_nil]
    rfl
  rw [compile_select given select, compile_select (s := s.unpaged) given select, apart,
    write_append_fixed _ (Statement.pagingPieces_isPlain ..)
      (Statement.pagingPieces_isFixed paged.1 paged.2 _ _),
    Statement.plainText_pagingPieces k paged]
  change (s.requireTable >>= _) = Except.map _ (s.requireTable >>= fun _ =>
    k.write s.reservedNames (s.unpaged.selectPieces k.dialect) >>= _)
  cases s.requireTable with
  | error e => rfl
  | ok _ => cases k.write s.reservedNames (s.unpaged.selectPieces k.dialect) <;> rfl

end Compiler

namespace Statement

/-- The clauses before the ordering. -/
def leadingClauses (dialect : String) (s : Statement) : List Clause :=
  (s.clauses dialect).takeWhile (·.keyword != " ORDER BY ")

theorem leadingClauses_eq (dialect : String) (s : Statement) :
    s.leadingClauses dialect = s.selectClause :: s.fromClause :: s.joins.map joinClause ++
      [⟨" WHERE ", conditionParts "WHERE" s.predicates⟩, ⟨" GROUP BY ", groupingParts s.grouping⟩,
        ⟨" HAVING ", conditionParts "HAVING" s.having⟩] := by
  have join (kind : JoinKind) : (" " ++ kind.text ++ " JOIN " != " ORDER BY ") = true := by
    cases kind <;> decide
  have front : ∀ clause ∈ s.selectClause :: s.fromClause :: s.joins.map joinClause,
      (clause.keyword != " ORDER BY ") = true :=
    List.forall_mem_cons.mpr ⟨rfl, List.forall_mem_cons.mpr ⟨rfl,
      List.forall_mem_map.mpr fun j _ => join j.kind⟩⟩
  rw [leadingClauses, clauses, List.takeWhile_append_of_pos front]
  rfl

theorem pieces_leadingClauses (dialect : String) (s : Statement) :
    (s.leadingClauses dialect).flatMap (fun c => c.parts.flatMap Part.pieces) =
      s.coreSelectPieces := by
  simp only [leadingClauses_eq, List.flatMap_append, List.flatMap_cons, List.flatMap_nil,
    List.flatMap_map, pieces_conditionParts, pieces_groupingParts, selectClause, fromClause,
    joinClause, Part.pieces, coreSelectPieces, selectWord, List.append_assoc, List.cons_append,
    List.append_nil]

/-- An ordering is written for an offset where the statement has none. -/
theorem orderingText_append_generated {k : Compiler} {s : Statement}
    (present : s.isPaginated = true) (tsql : k.dialect = "tsql") :
    s.orderingText k ++ s.generatedOrdering k.dialect =
      if s.ordering.isEmpty then " ORDER BY (SELECT NULL)" else s.orderingText k := by
  cases unordered : s.ordering.isEmpty with
  | true => simp [orderingText, generatedOrdering, unordered, present, tsql]
  | false => simp [generatedOrdering, unordered]

end Statement

namespace Compiler

variable {k : Compiler} {reserved : List String} {c c' : Collector} {sql : String}

theorem writeFrom_ordering {s : Statement}
    (h : k.writeFrom reserved c (Statement.orderingPieces s.ordering) = .ok (sql, c')) :
    sql = s.orderingText k := by
  rw [← Statement.pieces_orderingParts] at h
  obtain ⟨written, parts, names, rfl, -⟩ :=
    writeFrom_written (Statement.orderingParts_isSound s.ordering) h
  rw [NamedPart.eq_of_placeless parts names (Statement.orderingParts_places s.ordering),
    List.map_map]
  exact Statement.text_orderingParts k s

/-- The ordering of a statement stands after all other clauses, directly before limit and offset. -/
theorem compile_ordered {s : Statement} (given : s.isRaw = false)
    (select : s.operation = some .select) {c : Compiled} (h : k.compile s.unpaged = .ok c) :
    ∃ texts, List.Forall₂ (Clause.WrittenAs k) (s.leadingClauses k.dialect) texts ∧
      c.sql = String.join texts ++ s.orderingText k := by
  rw [compile_select (s := s.unpaged) given select] at h
  obtain ⟨_, -, h⟩ := ok_bind_iff.mp h
  obtain ⟨⟨sql, parameters⟩, hwrite, hc⟩ := ok_bind_iff.mp h
  obtain ⟨last, hlast, -⟩ := write_ok.mp hwrite
  cases hc
  rw [Statement.selectPieces, Statement.pagingPieces_unpaged (s := s.unpaged) rfl,
    List.append_nil] at hlast
  obtain ⟨core, ordering, c₁, hcore, hordering, rfl⟩ := writeFrom_append_ok.mp hlast
  have pieces : s.unpaged.coreSelectPieces = s.coreSelectPieces := rfl
  rw [pieces, ← Statement.pieces_leadingClauses k.dialect] at hcore
  have among : s.leadingClauses k.dialect ⊆ s.clauses k.dialect := List.takeWhile_subset _
  obtain ⟨texts, rfl, written⟩ := writeFrom_clauses
    (fun clause h => s.clauses_isSound k.dialect clause (among h))
    (fun clause h => s.clauses_isOpened k.dialect clause (among h)) hcore
  exact ⟨texts, written, by rw [writeFrom_ordering (s := s) hordering]⟩

end Compiler

theorem Call.natural_ofNat (argument : String) (n : Nat) :
    natural argument (.ofNat n) = .ok n := by
  rw [Value.ofNat, natural, if_neg (by omega)]
  rfl

/-- A page of a size, counted from one. -/
theorem Call.apply_paginate (s : Statement) {page perPage : Nat} (hpage : 1 ≤ page)
    (hsize : 1 ≤ perPage) : (Call.paginate (.ofNat page) (.ofNat perPage)).apply s =
      ({ s with limit := some perPage, offset := some ((page - 1) * perPage) }, none) := by
  have read : pageOf (.ofNat page) (.ofNat perPage) = .ok (perPage, (page - 1) * perPage) := by
    rw [pageOf, natural_ofNat, natural_ofNat]
    change (if page < 1 ∨ perPage < 1 then _ else _) = _
    rw [if_neg (by omega)]
  rw [apply, read]
  rfl

/-- Each row is shown on one page. -/
theorem paginate_shows_once (s : Statement) {perPage : Nat} (hsize : 1 ≤ perPage) (row : Nat) :
    ∃! page, 1 ≤ page ∧ ((Call.paginate (.ofNat page) (.ofNat perPage)).apply s).2 = none ∧
      ((Call.paginate (.ofNat page) (.ofNat perPage)).apply s).1.slice.Shows row := by
  have shows {page : Nat} (hpage : 1 ≤ page) :
      ((Call.paginate (.ofNat page) (.ofNat perPage)).apply s).1.slice.Shows row ↔
        row / perPage = page - 1 := by
    rw [Call.apply_paginate s hpage hsize, Nat.div_eq_iff hsize]
    simp only [Statement.slice, Slice.Shows, Option.getD_some, Option.mem_def, Option.some.injEq,
      forall_eq']
    omega
  refine ⟨row / perPage + 1, ⟨Nat.le_add_left 1 _, ?_, (shows (Nat.le_add_left 1 _)).mpr rfl⟩,
    fun page ⟨hpage, _, shown⟩ => ?_⟩
  · rw [Call.apply_paginate s (Nat.le_add_left 1 _) hsize]
  · rw [(shows hpage).mp shown, Nat.sub_add_cancel hpage]

/-- The text for a limit and an offset stands at the end of a SELECT; there is none without them. It
denotes their slice in the dialect's own form, unless settings stand after the name of a dialect
that has one: then the general form is written, which the dialect's own form agrees with only for a
limit that stands first. Where the own form has to follow an ordering, the one of the statement
stands before it, or else one that is written for it. Of the pages of a size, each row is on exactly
one. -/
theorem pages_denote_slices (k : Compiler) {s : Statement} (given : s.isRaw = false)
    (select : s.operation = some .select) (paged : s.Paged) :
    (∃ text,
      (k.compile s = (k.compile s.unpaged).map fun c =>
        { c with sql := c.sql ++ (s.generatedOrdering k.dialect ++ text) }) ∧
      (s.isPaginated = false → s.generatedOrdering k.dialect ++ text = "") ∧
      (s.isPaginated = true →
        (Dialect.baseName k.dialect = "mysql" → s.offset.isSome = true →
          s.limit ≠ some Slice.greatest) →
        (Slice.read k.dialect text = some s.slice ↔
          Dialect.KeepsForm k.dialect ∨
            Dialect.baseName k.dialect ≠ "tsql" ∧ s.limit.isSome = true)) ∧
      (s.isPaginated = true → ¬ Dialect.KeepsForm k.dialect →
        s.generatedOrdering k.dialect = "" ∧ Slice.read "" text = some s.slice) ∧
      (s.isPaginated = true → Dialect.baseName k.dialect = "tsql" → Dialect.KeepsForm k.dialect →
        ∀ c, k.compile s = .ok c → ∃ texts,
          List.Forall₂ (Clause.WrittenAs k) (s.leadingClauses k.dialect) texts ∧
            c.sql = String.join texts ++
              (if s.ordering.isEmpty then " ORDER BY (SELECT NULL)" else s.orderingText k) ++
                text)) ∧
    ∀ perPage, 1 ≤ perPage → ∀ row, ∃! page, 1 ≤ page ∧
      ((Call.paginate (.ofNat page) (.ofNat perPage)).apply s).2 = none ∧
      ((Call.paginate (.ofNat page) (.ofNat perPage)).apply s).1.slice.Shows row := by
  refine ⟨⟨Text.spaced (Statement.pageWords (Dialect.paging k.dialect) s.limit s.offset),
    Compiler.compile_paged given select paged, fun absent => ?_, fun present bounded => ?_,
    fun present lost => ⟨?_, ?_⟩, fun present tsql keeps c h => ?_⟩,
    fun perPage hsize row => paginate_shows_once s hsize row⟩
  · obtain ⟨limit, offset⟩ := Bool.or_eq_false_iff.mp absent
    rw [Option.isSome_eq_false_iff, Option.isNone_iff_eq_none] at limit offset
    rw [Statement.generatedOrdering, absent, limit, offset]
    simp [Statement.pageWords, Text.spaced]
  · exact Slice.read_pageWords_iff (Bool.or_eq_true_iff.mp present) bounded
  · have other : k.dialect ≠ "tsql" := fun same =>
      lost (.inl (Dialect.baseName_formed (same ▸ List.mem_cons_self)))
    rw [Statement.generatedOrdering, if_neg fun all => other all.1]
  · -- the general form is that of the dialect without a name
    have general : Dialect.paging k.dialect = Dialect.paging "" := by
      rw [Dialect.paging_of_lost lost]
      rfl
    rw [general]
    exact (Slice.read_pageWords_iff (Bool.or_eq_true_iff.mp present)
      fun same => absurd same (by decide +kernel)).mpr (.inl (.inl rfl))
  · rw [Compiler.compile_paged given select paged] at h
    have named : k.dialect = "tsql" := by
      obtain alone | unformed := keeps
      · exact alone.symm.trans tsql
      · exact absurd (tsql ▸ List.mem_cons_self) unformed
    cases bare : k.compile s.unpaged with
    | error e =>
        rw [bare] at h
        cases h
    | ok plain =>
        rw [bare] at h
        cases h
        obtain ⟨texts, written, hsql⟩ := Compiler.compile_ordered given select bare
        refine ⟨texts, written, ?_⟩
        change plain.sql ++ _ = _
        rw [hsql, ← Statement.orderingText_append_generated present named, String.append_assoc,
          String.append_assoc, String.append_assoc]

/-- The third page of ten users. -/
def pagedUsers : Statement where
  operation := some .select
  table := some "users"
  limit := some 10
  offset := some 20

theorem pages_denote_slices_of_users :
    (pagedUsers.isRaw = false ∧ pagedUsers.operation = some .select ∧ pagedUsers.Paged) ∧
    (∃ text, (({ dialect := "tsql" } : Compiler).compile pagedUsers =
        (({ dialect := "tsql" } : Compiler).compile pagedUsers.unpaged).map fun c =>
          { c with sql := c.sql ++ (" ORDER BY (SELECT NULL)" ++ text) }) ∧
      Slice.read "tsql" text = some ⟨some 10, 20⟩) ∧
    ∃! page, 1 ≤ page ∧
      ((Call.paginate (.ofNat page) (.ofNat 10)).apply pagedUsers).2 = none ∧
      ((Call.paginate (.ofNat page) (.ofNat 10)).apply pagedUsers).1.slice.Shows 24 := by
  have paged : pagedUsers.Paged := by
    constructor
    · rintro n ⟨⟩
      decide +kernel
    · rintro n ⟨⟩
      decide +kernel
  obtain ⟨⟨text, compiled, -, denotes, -⟩, covered⟩ :=
    pages_denote_slices { dialect := "tsql" } (s := pagedUsers) rfl rfl paged
  have keeps : Dialect.KeepsForm "tsql" := .inl (by decide +kernel)
  have bounded : Dialect.baseName "tsql" ≠ "mysql" := by decide +kernel
  exact ⟨⟨rfl, rfl, paged⟩, ⟨text, compiled, (denotes rfl fun same => absurd same bounded).mpr
    (.inl keeps)⟩, covered 10 (by decide) 24⟩

/-- With a version after its name a dialect is accepted and quotes names in its own way, but the
page of users is not asked for in its form. -/
theorem settings_after_a_name_lose_its_form :
    let k : Compiler := { dialect := "tsql, version=16" }
    Compiler.checkDialect (.text k.dialect) = .ok k.dialect ∧
      Dialect.quotes k.dialect = Dialect.quotes "tsql" ∧
      (k.compile pagedUsers).toOption.map (·.sql) =
        some "SELECT * FROM users LIMIT 10 OFFSET 20" ∧
      Slice.read k.dialect " LIMIT 10 OFFSET 20" = none :=
  ⟨rfl, by decide +kernel, by decide +kernel, by decide +kernel⟩

end FluentSql
