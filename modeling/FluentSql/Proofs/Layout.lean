import FluentSql.Compile.Statement
import FluentSql.Proofs.Outcome

/-!
The layout of a statement: its text as a row of parts, in the order in which the text is read. A
part that binds is a leaf, an assignment, an inserted value or a raw fragment, and it says what text
it has and which values stand in it; all other text is plain. The pieces that are written are those
of the layout, and the collector is filled part by part.
-/

namespace FluentSql

/-- How a generated placeholder looks; its name only counts in the styles that have names. -/
def Style.placeholder : Style → String → String
  | .qmark, _ => "?"
  | .format, _ => "%s"
  | .named, name => ":" ++ name
  | .pyformat, name => "%(" ++ name ++ ")s"

/-- The values of a leaf that placeholders stand for, in the order of its text. -/
def Operand.boundValues (operator : Operator) : Operand → List Value
  | .one v => if v.isNone && (operator.testsNull || operator.testsNotNull) then [] else [v]
  | .list vs => vs
  | .range low high => [low, high]

/-- What follows the column of a leaf, around the given placeholders. -/
def Operand.text (operator : Operator) (marks : List String) : Operand → String
  | .one v =>
    if v.isNone && operator.testsNull then " IS NULL"
    else if v.isNone && operator.testsNotNull then " IS NOT NULL"
    else " " ++ operator.text ++ " " ++ String.join marks
  | .list _ => " " ++ operator.text ++ " (" ++ ", ".intercalate marks ++ ")"
  | .range _ _ => " " ++ operator.text ++ " " ++ " AND ".intercalate marks

/-- The values that a fragment brings along for its marks. -/
def FragmentParams.items : Option FragmentParams → List Value
  | some (.list items) => items
  | _ => []

namespace Piece

/-- Pieces that no parameter belongs to. -/
def isPlain : Piece → Bool
  | .text _ | .name _ | .halt _ => true
  | .bound _ | .fragment .. => false

/-- The text of a plain piece. -/
def plainText (k : Compiler) : Piece → String
  | .text s => s
  | .name s => k.writeName s
  | _ => ""

end Piece

/-- A stretch of the text of a statement, with the values and parameters that belong to it. -/
inductive Part where
  | plain (pieces : List Piece)
  | leaf (field : String) (operator : Operator) (operand : Operand)
  | assignment (column : String) (value : Value)
  | inserted (value : Value)
  | fragment (clause : FragmentClause) (sql : String) (params : Option FragmentParams)

namespace Part

/-- The values of a part that placeholders stand for, in the order of its text. -/
def places : Part → List Value
  | .leaf _ operator operand => operand.boundValues operator
  | .assignment _ v | .inserted v => [v]
  | .plain _ | .fragment .. => []

/-- The values that belong to a part, in the order of its text. -/
def values : Part → List Value
  | .fragment _ _ params => FragmentParams.items params
  | part => part.places

/-- The text of a part with the given placeholders in its places. -/
def text (k : Compiler) (marks : List String) : Part → String
  | .plain pieces => String.join (pieces.map (Piece.plainText k))
  | .leaf field operator operand => k.writeName field ++ operand.text operator marks
  | .assignment column _ => k.writeName column ++ " = " ++ String.join marks
  | .inserted _ => String.join marks
  | .fragment _ sql _ => sql

/-- The pieces that write a part. -/
def pieces : Part → List Piece
  | .plain pieces => pieces
  | .leaf field operator operand => Atom.leafPieces field operator operand
  | .assignment column v => [.name column, .text " = ", .bound v]
  | .inserted v => [.bound v]
  | .fragment clause sql params => [.fragment clause sql params]

/-- Plain parts are made of plain pieces. -/
def IsSound : Part → Prop
  | .plain pieces => pieces.all Piece.isPlain = true
  | _ => True

end Part

def Token.part : Token → Part
  | .atom (.leaf field operator operand) => .leaf field operator operand
  | .atom (.fragment sql params) => .fragment .condition sql params
  | t => .plain t.pieces

namespace Statement

def comma : Part := .plain [.text ", "]

def conditionParts (keyword : String) (nodes : List Node) : List Part :=
  if nodes.isEmpty then []
  else .plain [.text (" " ++ keyword ++ " ")] :: (Node.clauseTokens nodes).map Token.part

def groupEntryPart (e : Entry) : Part :=
  match e.source with
  | .raw sql => .fragment .grouping sql e.params
  | .column _ => .plain (groupEntryPieces e)

def orderEntryPart (e : OrderEntry) : Part :=
  match e.source with
  | .raw sql => .fragment .ordering sql e.params
  | .column _ => .plain (orderEntryPieces e)

def groupingParts (grouping : List Entry) : List Part :=
  if grouping.isEmpty then []
  else .plain [.text " GROUP BY "] :: (grouping.map groupEntryPart).intersperse comma

def orderingParts (ordering : List OrderEntry) : List Part :=
  if ordering.isEmpty then []
  else .plain [.text " ORDER BY "] :: (ordering.map orderEntryPart).intersperse comma

/-- What a SELECT begins with: the projection, the table and the joins. -/
def selectHead (s : Statement) : List Piece :=
  .text (if s.distinct then "SELECT DISTINCT " else "SELECT ") :: projectionPieces s.columns ++
    .text " FROM " :: tablePieces (s.table.getD "") ++ s.joins.flatMap joinPieces

def selectParts (dialect : String) (s : Statement) : List Part :=
  .plain s.selectHead :: conditionParts "WHERE" s.predicates ++ groupingParts s.grouping ++
    conditionParts "HAVING" s.having ++ orderingParts s.ordering ++
    [.plain (pagingPieces (Dialect.paging dialect) (!s.ordering.isEmpty) s.limit s.offset)]

/-- What an INSERT begins with: the table and the names of the columns. -/
def insertHead (s : Statement) : List Piece :=
  .text "INSERT INTO " :: tablePieces (s.table.getD "") ++ .text " (" ::
    Piece.separated ", " (s.values.map fun (column, _) => [.name column]) ++ [.text ") VALUES ("]

def insertParts (s : Statement) : List Part :=
  .plain s.insertHead :: (s.values.map fun (_, v) => .inserted v).intersperse comma ++
    [.plain [.text ")"]]

def updateParts (s : Statement) : List Part :=
  .plain (.text "UPDATE " :: tablePieces (s.table.getD "") ++ [.text " SET "]) ::
    (s.values.map fun (column, v) => .assignment column v).intersperse comma ++
    conditionParts "WHERE" s.predicates

def deleteParts (s : Statement) : List Part :=
  .plain (.text "DELETE FROM " :: tablePieces (s.table.getD "")) ::
    conditionParts "WHERE" s.predicates

/-- The layout of a statement for an operation. -/
def parts (k : Compiler) (s : Statement) : Operation → List Part
  | .select => s.selectParts k.dialect
  | .insert => s.insertParts
  | .update => s.updateParts
  | .delete => s.deleteParts
  | .raw => []

/-- The layout of the counting form. -/
def countParts (k : Compiler) (s : Statement) : List Part :=
  if !s.grouping.isEmpty || !s.having.isEmpty || s.distinct || s.isPaginated then
    .plain [.text "SELECT COUNT(*) AS aggregate FROM ("] ::
      (if s.isPaginated then s else { s with ordering := [] }).selectParts k.dialect ++
      [.plain [.text ") AS aggregate_table"]]
  else
    { s with columns := ["COUNT(*) AS aggregate"], ordering := [] }.selectParts k.dialect

end Statement

theorem Token.pieces_part (t : Token) : t.part.pieces = t.pieces := by
  rcases t with (_ | _ | _) | _ | _ | _ <;> rfl

namespace Statement

open FluentSql.Part (pieces)

theorem flatMap_intersperse_comma (parts : List Part) :
    (parts.intersperse comma).flatMap pieces = Piece.separated ", " (parts.map pieces) := by
  induction parts with
  | nil => rfl
  | cons part parts ih =>
      cases parts with
      | nil => simp [Piece.separated]
      | cons part' parts =>
          simp only [List.intersperse_cons_cons, List.flatMap_cons, ih, List.map_cons,
            Piece.separated]
          rfl

theorem pieces_conditionParts (keyword : String) (nodes : List Node) :
    (conditionParts keyword nodes).flatMap pieces = conditionPieces keyword nodes := by
  simp only [conditionParts, conditionPieces]
  split
  · rfl
  · simp only [List.flatMap_cons, List.flatMap_map, Token.pieces_part]
    rfl

theorem pieces_groupEntryPart (e : Entry) : (groupEntryPart e).pieces = groupEntryPieces e := by
  cases h : e.source <;> simp [groupEntryPart, groupEntryPieces, pieces, h]

theorem pieces_orderEntryPart (e : OrderEntry) :
    (orderEntryPart e).pieces = orderEntryPieces e := by
  cases h : e.source <;> simp [orderEntryPart, orderEntryPieces, pieces, h]

theorem pieces_groupingParts (grouping : List Entry) :
    (groupingParts grouping).flatMap pieces = groupingPieces grouping := by
  simp only [groupingParts, groupingPieces]
  split
  · rfl
  · simp only [List.flatMap_cons, flatMap_intersperse_comma, List.map_map, Function.comp_def,
      pieces_groupEntryPart]
    rfl

theorem pieces_orderingParts (ordering : List OrderEntry) :
    (orderingParts ordering).flatMap pieces = orderingPieces ordering := by
  simp only [orderingParts, orderingPieces]
  split
  · rfl
  · simp only [List.flatMap_cons, flatMap_intersperse_comma, List.map_map, Function.comp_def,
      pieces_orderEntryPart]
    rfl

theorem pieces_selectParts (dialect : String) (s : Statement) :
    (s.selectParts dialect).flatMap pieces = s.selectPieces dialect := by
  simp only [selectParts, selectPieces, coreSelectPieces, List.flatMap_append, List.flatMap_cons,
    List.flatMap_nil, pieces_conditionParts, pieces_groupingParts, pieces_orderingParts,
    List.append_nil]
  rfl

theorem pieces_insertParts (s : Statement) : s.insertParts.flatMap pieces = s.insertPieces := by
  simp only [insertParts, insertPieces, insertHead, List.flatMap_append, List.flatMap_cons,
    List.flatMap_nil, flatMap_intersperse_comma, List.map_map, Function.comp_def, pieces,
    List.append_assoc, List.cons_append, List.nil_append, List.append_nil]

theorem pieces_updateParts (s : Statement) : s.updateParts.flatMap pieces = s.updatePieces := by
  simp only [updateParts, updatePieces, List.flatMap_append, List.flatMap_cons,
    flatMap_intersperse_comma, List.map_map, Function.comp_def, pieces, pieces_conditionParts,
    List.append_assoc, List.cons_append, List.nil_append]

theorem pieces_deleteParts (s : Statement) : s.deleteParts.flatMap pieces = s.deletePieces := by
  simp only [deleteParts, deletePieces, List.flatMap_cons, pieces_conditionParts, pieces]

/-- Once the rules of an operation are met, only the operation decides which pieces are written. -/
theorem piecesFor_cases {s : Statement} {k : Compiler} {operation : Operation} {ps : List Piece}
    (h : s.piecesFor k operation = .ok ps) :
    operation = .select ∧ ps = s.selectPieces k.dialect ∨
      operation = .insert ∧ ps = s.insertPieces ∨ operation = .update ∧ ps = s.updatePieces ∨
        operation = .delete ∧ ps = s.deletePieces := by
  cases operation with
  | select =>
      cases h
      exact .inl ⟨rfl, rfl⟩
  | insert =>
      obtain ⟨_, -, h⟩ := ok_bind_iff.mp h
      obtain ⟨_, -, h⟩ := ok_bind_iff.mp h
      cases h
      exact .inr (.inl ⟨rfl, rfl⟩)
  | update =>
      obtain ⟨_, -, h⟩ := ok_bind_iff.mp h
      obtain ⟨_, -, h⟩ := ok_bind_iff.mp h
      obtain ⟨_, -, h⟩ := ok_bind_iff.mp h
      cases h
      exact .inr (.inr (.inl ⟨rfl, rfl⟩))
  | delete =>
      obtain ⟨_, -, h⟩ := ok_bind_iff.mp h
      obtain ⟨_, -, h⟩ := ok_bind_iff.mp h
      cases h
      exact .inr (.inr (.inr ⟨rfl, rfl⟩))
  | raw => cases h

/-- Whatever pieces a statement is written with are those of its layout. -/
theorem piecesFor_ok {k : Compiler} {s : Statement} {operation : Operation} {ps : List Piece}
    (h : s.piecesFor k operation = .ok ps) : ps = (s.parts k operation).flatMap pieces := by
  obtain ⟨rfl, rfl⟩ | ⟨rfl, rfl⟩ | ⟨rfl, rfl⟩ | ⟨rfl, rfl⟩ := piecesFor_cases h
  · exact (pieces_selectParts k.dialect s).symm
  · exact (pieces_insertParts s).symm
  · exact (pieces_updateParts s).symm
  · exact (pieces_deleteParts s).symm

theorem pieces_countParts (k : Compiler) (s : Statement) :
    (s.countParts k).flatMap pieces = k.countPieces s := by
  simp only [countParts, Compiler.countPieces]
  split
  · simp only [List.flatMap_append, List.flatMap_cons, List.flatMap_nil, pieces_selectParts,
      pieces, List.append_nil]
    rfl
  · exact pieces_selectParts _ _

end Statement

theorem Piece.forall_separated {P : Piece → Prop} {separator : String}
    (between : P (.text separator))
    {pss : List (List Piece)} (h : ∀ ps ∈ pss, ∀ p ∈ ps, P p) :
    ∀ p ∈ separated separator pss, P p := by
  induction pss with
  | nil => exact fun _ hp => nomatch hp
  | cons ps pss ih =>
      have first := h ps (List.mem_cons_self ..)
      have rest := ih fun qs hqs => h qs (List.mem_cons_of_mem ps hqs)
      cases pss with
      | nil => exact first
      | cons qs pss =>
          exact List.forall_mem_append.mpr ⟨first, List.forall_mem_cons.mpr ⟨between, rest⟩⟩

theorem Piece.separated_isPlain (separator : String) {pss : List (List Piece)}
    (h : ∀ ps ∈ pss, ps.all isPlain = true) : (separated separator pss).all isPlain = true := by
  have between : (text separator).isPlain = true := rfl
  exact List.all_eq_true.mpr (forall_separated between fun ps hps => List.all_eq_true.mp (h ps hps))

/-- A leaf is written with words, its name and its values. -/
theorem Atom.forall_leafPieces {P : Piece → Prop} (text : ∀ s, P (.text s))
    (name : ∀ s, P (.name s)) (bound : ∀ v, P (.bound v)) (field : String) (operator : Operator)
    (operand : Operand) : ∀ p ∈ leafPieces field operator operand, P p := by
  have cons {p : Piece} {ps : List Piece} (hp : P p) (hps : ∀ q ∈ ps, P q) : ∀ q ∈ p :: ps, P q :=
    List.forall_mem_cons.mpr ⟨hp, hps⟩
  have nil : ∀ p ∈ [], P p := List.forall_mem_nil _
  cases operand with
  | one v =>
      simp only [leafPieces]
      split
      · exact cons (name field) (cons (text _) nil)
      · split
        · exact cons (name field) (cons (text _) nil)
        · exact cons (name field) (cons (text _) (cons (bound v) nil))
  | list vs =>
      have places : ∀ p ∈ Piece.separated ", " (vs.map fun v => [.bound v]), P p := by
        refine Piece.forall_separated (text _) fun ps hps => ?_
        obtain ⟨v, -, rfl⟩ := List.mem_map.mp hps
        exact cons (bound v) nil
      exact List.forall_mem_append.mpr
        ⟨List.forall_mem_append.mpr ⟨cons (name field) (cons (text _) nil), places⟩,
          cons (text _) nil⟩
  | range low high =>
      exact cons (name field) (cons (text _) (cons (bound low) (cons (text _)
        (cons (bound high) nil))))

theorem Token.part_isSound (t : Token) : t.part.IsSound := by
  obtain (_ | _ | _) | _ | _ | _ := t
  all_goals trivial

namespace Statement

theorem tablePieces_isPlain (reference : String) :
    (tablePieces reference).all Piece.isPlain = true := by
  simp only [tablePieces]
  split <;> rfl

theorem projectionPieces_isPlain (columns : List String) :
    (projectionPieces columns).all Piece.isPlain = true := by
  simp only [projectionPieces]
  split
  · rfl
  · refine Piece.separated_isPlain _ fun ps hps => ?_
    obtain ⟨column, _, rfl⟩ := List.mem_map.mp hps
    simp only [columnPieces]
    split <;> rfl

theorem joinPieces_isPlain (j : Join) : (joinPieces j).all Piece.isPlain = true := by
  simp only [joinPieces, List.all_cons, List.all_append, tablePieces_isPlain]
  cases j.condition <;> rfl

theorem numberPieces_isPlain (keyword : String) (n : Nat) :
    (numberPieces keyword n).all Piece.isPlain = true := by
  simp only [numberPieces]
  split <;> rfl

/-- Limit and offset are put together from numbers after keywords and from fixed words. The numbers
are the limit, the offset and, where an offset is needed, zero. -/
theorem pagingPieces_induction {P : List Piece → Prop} (nil : P [])
    (append : ∀ {ps qs : List Piece}, P ps → P qs → P (ps ++ qs)) {limit offset : Option Nat}
    (number : ∀ keyword ∈ [" LIMIT ", " OFFSET ", " FETCH NEXT "], ∀ n,
      n ∈ limit ∨ n ∈ offset ∨ n = 0 → P (numberPieces keyword n))
    (word : ∀ s ∈ [" ORDER BY (SELECT NULL)", " ROWS", " ROWS ONLY"], P [.text s])
    {paging : Dialect.Paging}
    (unbounded : ∀ stand, paging = .limit (some stand) → P [.text (" LIMIT " ++ stand)])
    (ordered : Bool) : P (pagingPieces paging ordered limit offset) := by
  have offsets {n : Nat} (h : n ∈ limit ∨ n ∈ offset ∨ n = 0) : P (numberPieces " OFFSET " n) :=
    number _ (by decide) n h
  have fetch {n : Nat} (h : n ∈ limit ∨ n ∈ offset ∨ n = 0) {tail : List Piece} (rest : P tail) :
      P ((if ordered then [] else [.text " ORDER BY (SELECT NULL)"]) ++
        numberPieces " OFFSET " n ++ .text " ROWS" :: tail) := by
    have order : P (if ordered then [] else [.text " ORDER BY (SELECT NULL)"]) := by
      split
      · exact nil
      · exact word _ (by decide)
    exact append (append order (offsets h)) (append (word " ROWS" (by decide)) rest)
  cases limit with
  | none =>
      cases offset with
      | none => cases paging <;> exact nil
      | some m =>
          have start : P (numberPieces " OFFSET " m) := offsets (.inr (.inl rfl))
          cases paging with
          | fetch => exact fetch (.inr (.inl rfl)) nil
          | limit stand =>
              cases stand with
              | none => exact append nil start
              | some stand => exact append (unbounded stand rfl) start
  | some n =>
      have limits : P (numberPieces " LIMIT " n) := number _ (by decide) n (.inl rfl)
      have rows : P (numberPieces " FETCH NEXT " n ++ [.text " ROWS ONLY"]) :=
        append (number _ (by decide) n (.inl rfl)) (word _ (by decide))
      cases offset with
      | none =>
          cases paging with
          | fetch => exact fetch (.inr (.inr rfl)) rows
          | limit stand => exact append limits nil
      | some m =>
          cases paging with
          | fetch => exact fetch (.inr (.inl rfl)) rows
          | limit stand => exact append limits (offsets (.inr (.inl rfl)))

theorem pagingPieces_isPlain (paging : Dialect.Paging) (ordered : Bool)
    (limit offset : Option Nat) :
    (pagingPieces paging ordered limit offset).all Piece.isPlain = true := by
  refine pagingPieces_induction (P := fun ps => ps.all Piece.isPlain = true) rfl
    (fun h h' => ?_) (fun keyword _ n _ => ?_) (fun _ _ => rfl) (fun _ _ => rfl) ordered
  · rw [List.all_append, h, h']
    rfl
  · exact numberPieces_isPlain keyword n

theorem selectHead_isPlain (s : Statement) : s.selectHead.all Piece.isPlain = true := by
  have joins : (s.joins.flatMap joinPieces).all Piece.isPlain = true := by
    simp only [List.all_flatMap, joinPieces_isPlain, List.all_eq_true, implies_true]
  simp only [selectHead, List.all_cons, List.all_append, projectionPieces_isPlain,
    tablePieces_isPlain, joins]
  rfl

theorem insertHead_isPlain (s : Statement) : s.insertHead.all Piece.isPlain = true := by
  have columns : (Piece.separated ", " (s.values.map fun (column, _) =>
      [Piece.name column])).all Piece.isPlain = true := by
    refine Piece.separated_isPlain _ fun ps hps => ?_
    obtain ⟨entry, _, rfl⟩ := List.mem_map.mp hps
    rfl
  simp only [insertHead, List.all_cons, List.all_append, tablePieces_isPlain, columns]
  rfl

/-- What the comma and every part is, the parts between commas are. -/
theorem forall_intersperse {P : Part → Prop} (between : P comma) {parts : List Part}
    (h : ∀ part ∈ parts, P part) : ∀ part ∈ parts.intersperse comma, P part := by
  induction parts with
  | nil => exact h
  | cons part parts ih =>
      cases parts with
      | nil => exact h
      | cons part' parts =>
          intro p hp
          simp only [List.intersperse_cons_cons, List.mem_cons] at hp
          obtain rfl | rfl | hp := hp
          · exact h _ (List.mem_cons_self ..)
          · exact between
          · exact ih (fun q hq => h q (List.mem_cons_of_mem part hq)) p hp

theorem conditionParts_isSound (keyword : String) (nodes : List Node) :
    ∀ part ∈ conditionParts keyword nodes, part.IsSound := by
  intro part hpart
  simp only [conditionParts] at hpart
  split at hpart
  · cases hpart
  · obtain rfl | hpart := List.mem_cons.mp hpart
    · rfl
    · obtain ⟨t, -, rfl⟩ := List.mem_map.mp hpart
      exact t.part_isSound

theorem groupingParts_isSound (grouping : List Entry) :
    ∀ part ∈ groupingParts grouping, part.IsSound := by
  intro part hpart
  simp only [groupingParts] at hpart
  split at hpart
  · cases hpart
  · obtain rfl | hpart := List.mem_cons.mp hpart
    · rfl
    · refine forall_intersperse (P := Part.IsSound) rfl (fun p hp => ?_) part hpart
      obtain ⟨⟨source, params⟩, -, rfl⟩ := List.mem_map.mp hp
      cases source <;> trivial

theorem orderingParts_isSound (ordering : List OrderEntry) :
    ∀ part ∈ orderingParts ordering, part.IsSound := by
  intro part hpart
  simp only [orderingParts] at hpart
  split at hpart
  · cases hpart
  · obtain rfl | hpart := List.mem_cons.mp hpart
    · rfl
    · refine forall_intersperse (P := Part.IsSound) rfl (fun p hp => ?_) part hpart
      obtain ⟨⟨⟨source, params⟩, direction⟩, -, rfl⟩ := List.mem_map.mp hp
      cases source <;> trivial

theorem selectParts_isSound (dialect : String) (s : Statement) :
    ∀ part ∈ s.selectParts dialect, part.IsSound := by
  intro part hpart
  simp only [selectParts, List.mem_append, List.mem_cons, List.mem_nil_iff, or_false] at hpart
  obtain ((((rfl | h) | h) | h) | h) | rfl := hpart
  · exact s.selectHead_isPlain
  · exact conditionParts_isSound _ _ part h
  · exact groupingParts_isSound _ part h
  · exact conditionParts_isSound _ _ part h
  · exact orderingParts_isSound _ part h
  · exact pagingPieces_isPlain ..

/-- Every plain part of a layout is plain. -/
theorem parts_isSound (k : Compiler) (s : Statement) (operation : Operation) :
    ∀ part ∈ s.parts k operation, part.IsSound := by
  intro part hpart
  cases operation with
  | select => exact selectParts_isSound _ s part hpart
  | insert =>
      simp only [parts, insertParts, List.mem_append, List.mem_cons, List.mem_nil_iff,
        or_false] at hpart
      obtain (rfl | h) | rfl := hpart
      · exact s.insertHead_isPlain
      · refine forall_intersperse (P := Part.IsSound) rfl (fun p hp => ?_) part h
        obtain ⟨_, -, rfl⟩ := List.mem_map.mp hp
        trivial
      · rfl
  | update =>
      simp only [parts, updateParts, List.mem_append, List.mem_cons] at hpart
      obtain (rfl | h) | h := hpart
      · simp only [Part.IsSound, List.all_append, List.all_cons, tablePieces_isPlain]
        rfl
      · refine forall_intersperse (P := Part.IsSound) rfl (fun p hp => ?_) part h
        obtain ⟨_, -, rfl⟩ := List.mem_map.mp hp
        trivial
      · exact conditionParts_isSound _ _ part h
  | delete =>
      simp only [parts, deleteParts, List.mem_cons] at hpart
      obtain rfl | h := hpart
      · simp only [Part.IsSound, List.all_cons, tablePieces_isPlain]
        rfl
      · exact conditionParts_isSound _ _ part h
  | raw => cases hpart

theorem countParts_isSound (k : Compiler) (s : Statement) :
    ∀ part ∈ s.countParts k, part.IsSound := by
  intro part hpart
  simp only [countParts] at hpart
  split at hpart
  · simp only [List.mem_append, List.mem_cons, List.mem_nil_iff, or_false] at hpart
    obtain (rfl | h) | rfl := hpart
    · rfl
    · exact selectParts_isSound _ _ part h
    · rfl
  · exact selectParts_isSound _ _ part hpart

end Statement
end FluentSql
