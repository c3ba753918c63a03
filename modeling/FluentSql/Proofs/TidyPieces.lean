import FluentSql.Proofs.UnmarkedNames

/-!
Marks of a written statement, counted piece by piece. A bound value has one mark. Pieces that are
not fences, such as names and fragments, always have a fence between them, so no mark arises where
two pieces meet. When names and expressions have no marks and each fragment has as many as values,
the pieces of a statement have as many marks as values.
-/

namespace FluentSql

/-- How many marks of the style a text has. -/
def Compiler.marks (k : Compiler) (s : String) : Nat := Text.occurrences k.style.mark s.toList

namespace Piece

/-- The text of a piece in a positional style. A refusal has none; it counts as a blank. -/
def shown (k : Compiler) : Piece → String
  | .text s => s
  | .name s => k.writeName s
  | .bound _ => k.style.placeholder ""
  | .fragment _ sql _ => sql
  | .halt _ => " "

/-- The values that belong to a piece. -/
def values : Piece → List Value
  | .bound v => [v]
  | .fragment _ _ params => FragmentParams.items params
  | _ => []

/-- Pieces that keep marks from arising between their neighbours: the places of bound values, and
texts that could not begin or end inside a mark. -/
def isFence : Piece → Bool
  | .text s => s.toList.head?.any (· != 's') && s.toList.all fun c => c != '?' && c != '%'
  | .bound _ | .halt _ => true
  | .name _ | .fragment .. => false

theorem isFence_number {keyword : String} (fence : (text keyword).isFence = true) (n : Nat) :
    (text (keyword ++ toString n)).isFence = true := by
  have digits : (toString n).toList.all (fun c => c != '?' && c != '%') = true := by
    refine List.all_eq_true.mpr fun c hc => ?_
    have digit : c.isDigit = true := Nat.isDigit_of_mem_toDigits (b := 10) (n := n)
      (by decide) (by decide) (by simpa using hc)
    simp only [Bool.and_eq_true, bne_iff_ne, ne_eq]
    constructor <;> (rintro rfl; cases digit)
  obtain ⟨hhead, hall⟩ := Bool.and_eq_true_iff.mp fence
  simp only [isFence, String.toList_append, List.all_append, hall, digits, Bool.and_true]
  cases hs : keyword.toList with
  | nil => rw [hs] at hhead; cases hhead
  | cons c cs => rwa [hs] at hhead

/-- Pieces in which the marks are those of the values, and no mark arises where two pieces meet. -/
structure Tidy (k : Compiler) (ps : List Piece) : Prop where
  spaced : ps.IsChain fun p q => p.isFence = true ∨ q.isFence = true
  fit : ∀ p ∈ ps, k.marks (p.shown k) = p.values.length

/-- Tidy pieces of which the first, if there is one, keeps what stands before them apart. -/
structure Fenced (k : Compiler) (ps : List Piece) : Prop extends Tidy k ps where
  head : ∀ p ∈ ps.head?, p.isFence = true

variable {k : Compiler}

theorem Fenced.nil : Fenced k [] := ⟨⟨.nil, by simp⟩, by simp⟩

theorem Tidy.singleton {p : Piece} (fit : k.marks (p.shown k) = p.values.length) : Tidy k [p] :=
  ⟨.singleton p, by simpa using fit⟩

theorem Tidy.append {ps qs : List Piece} (h : Tidy k ps) (h' : Fenced k qs) :
    Tidy k (ps ++ qs) := by
  constructor
  · rw [List.isChain_append]
    exact ⟨h.spaced, h'.spaced, fun p _ q hq => .inr (h'.head q hq)⟩
  · intro p hp
    exact (List.mem_append.mp hp).elim (h.fit p) (h'.fit p)

theorem Fenced.append {ps qs : List Piece} (h : Fenced k ps) (h' : Fenced k qs) :
    Fenced k (ps ++ qs) := by
  refine ⟨h.toTidy.append h', fun p hp => ?_⟩
  cases ps with
  | nil => exact h'.head p hp
  | cons q ps => exact h.head p hp

theorem Fenced.flatMap {α : Type} {f : α → List Piece} {xs : List α}
    (h : ∀ x ∈ xs, Fenced k (f x)) : Fenced k (xs.flatMap f) := by
  induction xs with
  | nil => exact .nil
  | cons x xs ih =>
      rw [List.flatMap_cons]
      exact (h x (List.mem_cons_self ..)).append (ih fun y hy => h y (List.mem_cons_of_mem x hy))

theorem Tidy.cons {p : Piece} {ps : List Piece}
    (fit : k.marks (p.shown k) = p.values.length) (h : Fenced k ps) : Tidy k (p :: ps) :=
  (Tidy.singleton fit).append h

theorem Fenced.cons {p : Piece} {ps : List Piece} (fence : p.isFence = true)
    (fit : k.marks (p.shown k) = p.values.length) (h : Tidy k ps) : Fenced k (p :: ps) := by
  refine ⟨⟨List.isChain_cons.mpr ⟨fun q _ => .inl fence, h.spaced⟩, ?_⟩, ?_⟩
  · simpa using ⟨fit, h.fit⟩
  · simpa using fence

variable (positional : k.style.isNamed = false)
include positional

theorem isFence_shown {p : Piece} (fence : p.isFence = true) :
    Text.IsFence (p.shown k).toList := by
  cases p with
  | text s =>
      obtain ⟨hhead, hall⟩ := Bool.and_eq_true_iff.mp fence
      have clean (c : Char) (hc : c ∈ s.toList) : c ≠ '%' := by
        have := List.all_eq_true.mp hall c hc
        simp_all
      change Text.IsFence s.toList
      cases hs : s.toList with
      | nil => rw [hs] at hhead; cases hhead
      | cons c cs =>
          rw [hs] at hhead clean
          refine ⟨List.cons_ne_nil _ _, ?_, fun last => ?_⟩
          · simpa using hhead
          · exact clean '%' (List.mem_of_getLast? last) rfl
  | bound v => exact Text.isFence_mark positional
  | halt e =>
      change Text.IsFence " ".toList
      constructor <;> decide
  | name | fragment => cases fence

/-- Tidy pieces have as many marks as values. -/
theorem Tidy.marks_join {ps : List Piece} (h : Tidy k ps) :
    k.marks (String.join (ps.map (shown k))) = (ps.flatMap values).length := by
  have spaced : (ps.map fun p => (p.shown k).toList).IsChain
      fun a b => Text.IsFence a ∨ Text.IsFence b := by
    rw [List.isChain_map]
    exact h.spaced.imp fun p q =>
      Or.imp (isFence_shown positional) (isFence_shown positional)
  have fit : ps.map (fun p => k.marks (p.shown k)) = ps.map fun p => p.values.length :=
    List.map_congr_left h.fit
  calc k.marks (String.join (ps.map (shown k)))
      = Text.occurrences k.style.mark (ps.map fun p => (p.shown k).toList).flatten := by
        simp only [Compiler.marks, String.toList_join, List.flatMap_def, List.map_map,
          Function.comp_def]
    _ = (ps.map fun p => k.marks (p.shown k)).sum := by
        rw [Text.occurrences_flatten positional spaced, List.map_map]
        rfl
    _ = (ps.flatMap values).length := by rw [fit, List.length_flatMap]

theorem marks_text {s : String} (fence : (text s).isFence = true) : k.marks s = 0 := by
  refine Text.occurrences_unmarked positional fun c hc => ?_
  have := List.all_eq_true.mp (Bool.and_eq_true_iff.mp fence).2 c hc
  simpa using this

theorem Fenced.text {s : String} {ps : List Piece} (fence : (Piece.text s).isFence = true)
    (h : Tidy k ps) : Fenced k (.text s :: ps) :=
  .cons fence (marks_text positional fence) h

theorem Fenced.bound (v : Value) : Fenced k [.bound v] := by
  refine .cons rfl ?_ Fenced.nil.toTidy
  change Text.occurrences k.style.mark k.style.mark = 1
  rcases Text.mark_eq positional with hmark | hmark <;> rw [hmark] <;> rfl

theorem Fenced.halt (e : Error) : Fenced k [.halt e] :=
  .cons rfl (marks_text (s := " ") positional rfl) Fenced.nil.toTidy

theorem marks_name {s : String} (h : k.marks s = 0) : k.marks ((name s).shown k) = 0 := by
  change k.marks (k.writeName s) = 0
  simp only [Compiler.writeName]
  split
  · exact Dialect.occurrences_quote positional _ h
  · exact h

theorem tidy_separated {separator : String} (fence : (Piece.text separator).isFence = true)
    {pss : List (List Piece)} (h : ∀ ps ∈ pss, Tidy k ps) : Tidy k (separated separator pss) := by
  induction pss with
  | nil => exact Fenced.nil.toTidy
  | cons ps pss ih =>
      have first := h ps (List.mem_cons_self ..)
      have rest := ih fun qs hqs => h qs (List.mem_cons_of_mem ps hqs)
      cases pss with
      | nil => exact first
      | cons qs pss => exact first.append (.text positional fence rest)

end Piece

section

variable (k : Compiler)

namespace Node

mutual

/-- Columns have no marks, and fragments have as many as they have values. -/
def MarksFit : Node → Prop
  | .leaf field _ _ _ => k.marks field = 0
  | .raw sql params _ => k.marks sql = (FragmentParams.items params).length
  | .group items _ => MarksFitAll items
  | .stray _ => True

def MarksFitAll : List Node → Prop
  | [] => True
  | node :: rest => MarksFit node ∧ MarksFitAll rest

end

end Node

def Entry.MarksFit (e : Entry) : Prop :=
  match e.source with
  | .column name => k.marks name = 0
  | .raw sql => k.marks sql = (FragmentParams.items e.params).length

def Join.MarksFit (j : Join) : Prop :=
  match j.condition with
  | .columns left _ right => k.marks left = 0 ∧ k.marks right = 0
  | .text condition => k.marks condition = 0

/-- No identifier, expression of the projection or join condition has a mark, and each fragment has
as many marks as values. Tables are left out, since no reference to a table can have a mark. -/
structure Statement.MarksFit (s : Statement) : Prop where
  columns : ∀ column ∈ s.columns, k.marks column = 0
  values : ∀ entry ∈ s.values, k.marks entry.1 = 0
  joins : ∀ j ∈ s.joins, j.MarksFit k
  predicates : Node.MarksFitAll k s.predicates
  having : Node.MarksFitAll k s.having
  grouping : ∀ e ∈ s.grouping, e.MarksFit k
  ordering : ∀ e ∈ s.ordering, e.toEntry.MarksFit k

end

section

open Piece

variable {k : Compiler} (positional : k.style.isNamed = false)
include positional

theorem Atom.leafPieces_tidy {field : String} (h : k.marks field = 0) (operator : Operator)
    (operand : Operand) : Tidy k (leafPieces field operator operand) := by
  have fieldFit := marks_name positional h
  have comparison : (Piece.text (" " ++ operator.text ++ " ")).isFence = true := by
    cases operator <;> rfl
  cases operand with
  | one v =>
      simp only [leafPieces]
      split
      · exact .cons fieldFit (.text positional rfl Fenced.nil.toTidy)
      · split
        · exact .cons fieldFit (.text positional rfl Fenced.nil.toTidy)
        · exact .cons fieldFit (.text positional comparison (Fenced.bound positional v).toTidy)
  | list vs =>
      have opening : (Piece.text (" " ++ operator.text ++ " (")).isFence = true := by
        cases operator <;> rfl
      have places : Tidy k (separated ", " (vs.map fun v => [.bound v])) := by
        refine tidy_separated positional rfl fun ps hps => ?_
        obtain ⟨v, -, rfl⟩ := List.mem_map.mp hps
        exact (Fenced.bound positional v).toTidy
      have closing : Fenced k [.text ")"] :=
        .text positional rfl Fenced.nil.toTidy
      exact .cons fieldFit (.text positional opening (places.append closing))
  | range low high =>
      have upper : Fenced k [.text " AND ", .bound high] :=
        .text positional rfl (Fenced.bound positional high).toTidy
      exact .cons fieldFit (.text positional comparison
        ((Fenced.bound positional low).append upper).toTidy)

theorem Token.fenced_closing : Fenced k Token.closing.pieces :=
  .text positional rfl Fenced.nil.toTidy

theorem Token.fenced_opening {ps : List Piece} (h : Tidy k ps) :
    Fenced k (Token.opening.pieces ++ ps) :=
  .text positional rfl h

theorem Token.fenced_connector (c : Connector) {ps : List Piece} (h : Tidy k ps) :
    Fenced k ((Token.connector c).pieces ++ ps) :=
  .text positional (by cases c <;> rfl) h

namespace Node

mutual

/-- The tokens of a node are tidy wherever it stands. -/
theorem tokens_tidy (isolated : Bool) :
    ∀ node : Node, node.MarksFit k → Tidy k ((node.tokens isolated).flatMap Token.pieces)
  | .leaf field operator operand _, h => by
      rw [tokens, List.flatMap_singleton]
      exact Atom.leafPieces_tidy positional h operator operand
  | .raw sql params _, h => by
      rw [tokens, List.flatMap_singleton]
      exact Tidy.singleton (p := .fragment .condition sql params) h
  | .stray v, _ => by
      rw [tokens, List.flatMap_singleton]
      exact (Fenced.halt positional _).toTidy
  | .group [] _, _ => by
      cases isolated with
      | false => exact Fenced.nil.toTidy
      | true =>
          exact (Token.fenced_opening positional (Token.fenced_closing positional).toTidy).toTidy
  | .group [item] _, h => tokens_tidy isolated item h.1
  | .group (first :: second :: rest) _, h => by
      have inner : Tidy k ((sequence true (first :: second :: rest)).flatMap Token.pieces) := by
        rw [sequence, List.flatMap_append]
        exact (tokens_tidy true first h.1).append (continued_fenced true (second :: rest) h.2)
      cases isolated with
      | false => exact inner
      | true =>
          simp only [tokens, if_true, List.flatMap_append, List.flatMap_cons, List.flatMap_nil,
            List.append_nil, List.append_assoc]
          exact (Token.fenced_opening positional
            (inner.append (Token.fenced_closing positional))).toTidy

theorem continued_fenced (isolated : Bool) : ∀ nodes : List Node, MarksFitAll k nodes →
    Fenced k ((continued isolated nodes).flatMap Token.pieces)
  | [], _ => Fenced.nil
  | node :: rest, h => by
      rw [continued, List.flatMap_append, List.flatMap_cons, List.append_assoc]
      exact Token.fenced_connector positional node.connector
        ((tokens_tidy isolated node h.1).append (continued_fenced isolated rest h.2))

end

theorem sequence_tidy (isolated : Bool) : ∀ nodes : List Node, MarksFitAll k nodes →
    Tidy k ((sequence isolated nodes).flatMap Token.pieces)
  | [], _ => Fenced.nil.toTidy
  | node :: rest, h => by
      rw [sequence, List.flatMap_append]
      exact (tokens_tidy positional isolated node h.1).append
        (continued_fenced positional isolated rest h.2)

end Node

namespace Statement

theorem tablePieces_tidy (reference : String) : Tidy k (tablePieces reference) := by
  simp only [tablePieces]
  split
  · next name short hsplit =>
      have unmarked := TableReference.split_unmarked hsplit
      have hname := Text.occurrences_unmarked positional unmarked.1
      have hshort := Text.occurrences_unmarked positional (unmarked.2 short rfl)
      exact .cons (marks_name positional hname)
        (.text positional rfl (.singleton (marks_name positional hshort)))
  · next name hsplit =>
      have unmarked := TableReference.split_unmarked hsplit
      exact .singleton (marks_name positional (Text.occurrences_unmarked positional unmarked.1))
  · exact (Fenced.halt positional _).toTidy

theorem projectionPieces_tidy {columns : List String}
    (h : ∀ column ∈ columns, k.marks column = 0) : Tidy k (projectionPieces columns) := by
  simp only [projectionPieces]
  split
  · exact (Fenced.text positional rfl Fenced.nil.toTidy).toTidy
  · refine tidy_separated positional rfl fun ps hps => ?_
    obtain ⟨column, hcolumn, rfl⟩ := List.mem_map.mp hps
    simp only [columnPieces]
    split
    · exact .singleton (marks_name positional (h column hcolumn))
    · exact .singleton (h column hcolumn)

theorem joinPieces_fenced {j : Join} (h : j.MarksFit k) : Fenced k (joinPieces j) := by
  have keyword : (Piece.text (" " ++ j.kind.text ++ " JOIN ")).isFence = true := by
    cases j.kind <;> rfl
  simp only [Join.MarksFit] at h
  rw [joinPieces]
  refine .append (.text positional keyword (tablePieces_tidy positional j.table))
    (.text positional rfl ?_)
  split
  · next condition hcondition =>
      rw [hcondition] at h
      exact .singleton h
  · next left operator right hcondition =>
      rw [hcondition] at h
      have comparison : (Piece.text (" " ++ operator.text ++ " ")).isFence = true := by
        cases operator <;> rfl
      exact .cons (marks_name positional h.1)
        (.text positional comparison (.singleton (marks_name positional h.2)))

theorem conditionPieces_fenced {keyword : String} {nodes : List Node}
    (fence : (Piece.text (" " ++ keyword ++ " ")).isFence = true)
    (h : Node.MarksFitAll k nodes) : Fenced k (conditionPieces keyword nodes) := by
  simp only [conditionPieces]
  split
  · exact Fenced.nil
  · exact .text positional fence (Node.sequence_tidy positional _ nodes h)

theorem groupingPieces_fenced {grouping : List Entry} (h : ∀ e ∈ grouping, e.MarksFit k) :
    Fenced k (groupingPieces grouping) := by
  simp only [groupingPieces]
  split
  · exact Fenced.nil
  · refine .text positional rfl
      (tidy_separated positional rfl fun ps hps => ?_)
    obtain ⟨⟨source, params⟩, he, rfl⟩ := List.mem_map.mp hps
    have fit := h _ he
    cases source with
    | column name => exact .singleton (marks_name positional fit)
    | raw sql => exact .singleton fit

theorem orderingPieces_fenced {ordering : List OrderEntry}
    (h : ∀ e ∈ ordering, e.toEntry.MarksFit k) : Fenced k (orderingPieces ordering) := by
  simp only [orderingPieces]
  split
  · exact Fenced.nil
  · refine .text positional rfl
      (tidy_separated positional rfl fun ps hps => ?_)
    obtain ⟨⟨⟨source, params⟩, direction⟩, he, rfl⟩ := List.mem_map.mp hps
    have fit := h _ he
    cases source with
    | column name =>
        have word : (Piece.text (" " ++ direction.text)).isFence = true := by
          cases direction <;> rfl
        exact .cons (marks_name positional fit) (.text positional word Fenced.nil.toTidy)
    | raw sql => exact .singleton fit

theorem numberPieces_fenced {keyword : String} (fence : (Piece.text keyword).isFence = true)
    (n : Nat) : Fenced k (numberPieces keyword n) := by
  simp only [numberPieces]
  split
  · exact .text positional (isFence_number fence n) Fenced.nil.toTidy
  · exact .halt positional _

theorem pagingPieces_fenced {paging : Dialect.Paging}
    (unbounded : ∀ stand, paging = .limit (some stand) →
      (Piece.text (" LIMIT " ++ stand)).isFence = true)
    (ordered : Bool) (limit offset : Option Nat) :
    Fenced k (pagingPieces paging ordered limit offset) := by
  have keywords : ∀ keyword ∈ [" LIMIT ", " OFFSET ", " FETCH NEXT "],
      (Piece.text keyword).isFence = true := by decide
  have words : ∀ s ∈ [" ORDER BY (SELECT NULL)", " ROWS", " ROWS ONLY"],
      (Piece.text s).isFence = true := by decide
  have word {s : String} (fence : (Piece.text s).isFence = true) : Fenced k [.text s] :=
    .text positional fence Fenced.nil.toTidy
  exact pagingPieces_induction .nil .append
    (fun keyword hkeyword n _ => numberPieces_fenced positional (keywords keyword hkeyword) n)
    (fun s hs => word (words s hs)) (fun stand h => word (unbounded stand h)) ordered

theorem selectPieces_fenced (dialect : String) {s : Statement} (h : s.MarksFit k) :
    Fenced k (s.selectPieces dialect) := by
  have keyword : (Piece.text (if s.distinct then "SELECT DISTINCT " else "SELECT ")).isFence =
      true := by
    cases s.distinct <;> rfl
  have joins : Fenced k (s.joins.flatMap joinPieces) :=
    .flatMap fun j hj => joinPieces_fenced positional (h.joins j hj)
  have unbounded (stand : String) (hpaging : Dialect.paging dialect = .limit (some stand)) :
      (Piece.text (" LIMIT " ++ stand)).isFence = true := by
    simp only [Dialect.paging] at hpaging
    split at hpaging
    · cases hpaging
    · split at hpaging
      · cases hpaging
        decide
      · split at hpaging
        · cases hpaging
          decide
        · cases hpaging
  have core : Fenced k s.coreSelectPieces :=
    (((((Fenced.text positional keyword (projectionPieces_tidy positional h.columns)).append
      (.text positional rfl (tablePieces_tidy positional _))).append joins).append
      (conditionPieces_fenced positional rfl h.predicates)).append
      (groupingPieces_fenced positional h.grouping)).append
      (conditionPieces_fenced positional rfl h.having)
  exact (core.append (orderingPieces_fenced positional h.ordering)).append
    (pagingPieces_fenced positional unbounded _ _ _)

theorem insertPieces_tidy {s : Statement} (h : s.MarksFit k) : Tidy k s.insertPieces := by
  have columns : Tidy k (separated ", " (s.values.map fun entry => [.name entry.1])) := by
    refine tidy_separated positional rfl fun ps hps => ?_
    obtain ⟨entry, hentry, rfl⟩ := List.mem_map.mp hps
    exact .singleton (marks_name positional (h.values entry hentry))
  have places : Tidy k (separated ", " (s.values.map fun entry => [.bound entry.2])) := by
    refine tidy_separated positional rfl fun ps hps => ?_
    obtain ⟨entry, -, rfl⟩ := List.mem_map.mp hps
    exact (Fenced.bound positional entry.2).toTidy
  have closing : Fenced k [.text ")"] :=
    .text positional rfl Fenced.nil.toTidy
  exact ((((Fenced.text positional rfl (tablePieces_tidy positional _)).append
    (.text positional rfl columns)).append
    (.text positional rfl places)).append closing).toTidy

theorem updatePieces_tidy {s : Statement} (h : s.MarksFit k) : Tidy k s.updatePieces := by
  have assignments : Tidy k (separated ", " (s.values.map fun entry =>
      [.name entry.1, .text " = ", .bound entry.2])) := by
    refine tidy_separated positional rfl fun ps hps => ?_
    obtain ⟨entry, hentry, rfl⟩ := List.mem_map.mp hps
    exact .cons (marks_name positional (h.values entry hentry))
      (.text positional rfl (Fenced.bound positional entry.2).toTidy)
  exact (((Fenced.text positional rfl (tablePieces_tidy positional _)).append
    (.text positional rfl assignments)).append
    (conditionPieces_fenced positional rfl h.predicates)).toTidy

theorem deletePieces_tidy {s : Statement} (h : s.MarksFit k) : Tidy k s.deletePieces :=
  ((Fenced.text positional rfl (tablePieces_tidy positional _)).append
    (conditionPieces_fenced positional rfl h.predicates)).toTidy

/-- The pieces of a layout are tidy when the statement's own texts fit. -/
theorem parts_tidy {s : Statement} (h : s.MarksFit k) (operation : Operation) :
    Tidy k ((s.parts k operation).flatMap Part.pieces) := by
  cases operation with
  | select =>
      rw [parts, pieces_selectParts]
      exact (selectPieces_fenced positional _ h).toTidy
  | insert =>
      rw [parts, pieces_insertParts]
      exact insertPieces_tidy positional h
  | update =>
      rw [parts, pieces_updateParts]
      exact updatePieces_tidy positional h
  | delete =>
      rw [parts, pieces_deleteParts]
      exact deletePieces_tidy positional h
  | raw => exact Fenced.nil.toTidy

theorem countParts_tidy {s : Statement} (h : s.MarksFit k) :
    Tidy k ((s.countParts k).flatMap Part.pieces) := by
  have unordered : ({ s with ordering := [] } : Statement).MarksFit k :=
    { h with ordering := by simp }
  rw [pieces_countParts]
  simp only [Compiler.countPieces]
  split
  · have inner : (if s.isPaginated then s else { s with ordering := [] }).MarksFit k := by
      split
      · exact h
      · exact unordered
    have closing : Fenced k [.text ") AS aggregate_table"] :=
      .text positional rfl Fenced.nil.toTidy
    exact ((Fenced.text positional rfl
      (selectPieces_fenced positional k.dialect inner).toTidy).append closing).toTidy
  · have columns (column : String) (hcolumn : column ∈ ["COUNT(*) AS aggregate"]) :
        k.marks column = 0 := by
      rw [List.mem_singleton.mp hcolumn]
      exact marks_text positional rfl
    have counted : ({ s with columns := ["COUNT(*) AS aggregate"], ordering := [] } :
        Statement).MarksFit k := { unordered with columns }
    exact (selectPieces_fenced positional k.dialect counted).toTidy

end Statement

end

end FluentSql
