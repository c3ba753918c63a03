import FluentSql.Proofs.HarmlessText
import FluentSql.Proofs.Layout

/-!
Where the pieces of a statement come from. A piece is a word of the language, a name from one of the
places that hold names, an expression of the projection, a raw text that was taken as one, the place
of a bound value, or a refusal.
-/

namespace FluentSql

def fixedWords : List String :=
  ["SELECT ", "SELECT DISTINCT ", "*", " FROM ", " AS ", " ON ", " WHERE ", " HAVING ", " IS NULL",
    " IS NOT NULL", " AND ", "(", ")", ", ", " GROUP BY ", " ORDER BY ", " ORDER BY (SELECT NULL)",
    " ROWS", " ROWS ONLY", " LIMIT -1", " LIMIT 18446744073709551615", "INSERT INTO ", " (",
    ") VALUES (", "UPDATE ", " SET ", " = ", "DELETE FROM "]

/-- The words that stand between names and values, numbers after their keyword included. -/
inductive Word : String → Prop
  | fixed {text : String} (h : text ∈ fixedWords) : Word text
  | operator (operator : Operator) : Word (" " ++ operator.text ++ " ")
  | listOperator (operator : Operator) : Word (" " ++ operator.text ++ " (")
  | connector (c : Connector) : Word (" " ++ c.text ++ " ")
  | join (kind : JoinKind) : Word (" " ++ kind.text ++ " JOIN ")
  | direction (d : Direction) : Word (" " ++ d.text)
  | number {keyword : String} (h : keyword ∈ [" LIMIT ", " OFFSET ", " FETCH NEXT "]) (n : Nat) :
      Word (keyword ++ toString n)

theorem Word.woven {text : String} (h : Word text) : Text.Woven text.toList := by
  cases h with
  | fixed h =>
      revert text
      decide +kernel
  | operator operator | listOperator operator =>
      exact .around (by decide) (woven_operator operator) (by decide)
  | connector c => cases c <;> decide
  | join kind => cases kind <;> decide
  | direction d => cases d <;> decide
  | @number keyword h n =>
      have woven : Text.Woven keyword.toList := by
        revert keyword
        decide
      rw [String.toList_append]
      exact woven.append (woven_number n)

/-- The places of a statement that hold names. -/
inductive Place where
  | table
  | shortName
  | expression
  | side
  | field
  | grouping
  | ordering
  | value
deriving DecidableEq, Repr

namespace JoinCondition

def sides : JoinCondition → List String
  | .columns left _ right => [left, right]
  | .text _ => []

def raw? : JoinCondition → Option String
  | .columns .. => none
  | .text condition => some condition

end JoinCondition

namespace Source

def column? : Source → Option String
  | .column name => some name
  | .raw _ => none

def raw? : Source → Option String
  | .column _ => none
  | .raw sql => some sql

end Source

namespace Token

def field? : Token → Option String
  | .atom (.leaf field _ _) => some field
  | _ => none

def raw? : Token → Option String
  | .atom (.fragment sql _) => some sql
  | _ => none

end Token

namespace Statement

/-- The references to tables, as they are stored. -/
def references (s : Statement) : List String := s.table.getD "" :: s.joins.map (·.table)

def conditionTokens (s : Statement) : List Token :=
  Node.clauseTokens s.predicates ++ Node.clauseTokens s.having

def namesAt (s : Statement) : Place → List String
  | .table => s.references.filterMap fun reference =>
    (TableReference.split (.text reference)).toOption.map (·.name)
  | .shortName => s.references.filterMap fun reference =>
    (TableReference.split (.text reference)).toOption.bind (·.shortName)
  | .expression => s.columns
  | .side => s.joins.flatMap (·.condition.sides)
  | .field => s.conditionTokens.filterMap Token.field?
  | .grouping => s.grouping.filterMap (·.source.column?)
  | .ordering => s.ordering.filterMap (·.source.column?)
  | .value => Fields.keys s.values

/-- The texts that are written as they were given. -/
def rawTexts (s : Statement) : List String :=
  s.joins.filterMap (·.condition.raw?) ++ s.conditionTokens.filterMap Token.raw? ++
    s.grouping.filterMap (·.source.raw?) ++ s.ordering.filterMap (·.source.raw?)

inductive Origin (s : Statement) : Piece → Prop
  | word {text : String} (h : Word text) : Origin s (.text text)
  | name {name : String} (place : Place) (h : name ∈ s.namesAt place) : Origin s (.name name)
  | expression {text : String} (h : text ∈ s.columns) : Origin s (.text text)
  | condition {text : String} (h : text ∈ s.rawTexts) : Origin s (.text text)
  | fragment {clause : FragmentClause} {sql : String} {params : Option FragmentParams}
      (h : sql ∈ s.rawTexts) : Origin s (.fragment clause sql params)
  | bound (v : Value) : Origin s (.bound v)
  | halt (e : Error) : Origin s (.halt e)

/-- Every piece has an origin in the statement. -/
def Origins (s : Statement) (ps : List Piece) : Prop := ∀ p ∈ ps, s.Origin p

variable {s : Statement}

namespace Origins

theorem nil : s.Origins [] := List.forall_mem_nil _

theorem cons {p : Piece} {ps : List Piece} (hp : s.Origin p) (hps : s.Origins ps) :
    s.Origins (p :: ps) :=
  List.forall_mem_cons.mpr ⟨hp, hps⟩

theorem append {ps qs : List Piece} (hps : s.Origins ps) (hqs : s.Origins qs) :
    s.Origins (ps ++ qs) :=
  List.forall_mem_append.mpr ⟨hps, hqs⟩

theorem flatMap {α : Type} {f : α → List Piece} {xs : List α}
    (h : ∀ x ∈ xs, s.Origins (f x)) : s.Origins (xs.flatMap f) := by
  intro p hp
  obtain ⟨x, hx, hp⟩ := List.mem_flatMap.mp hp
  exact h x hx p hp

/-- Members written one by one with commas between them. -/
theorem list {α : Type} {f : α → List Piece} {xs : List α} (h : ∀ x ∈ xs, s.Origins (f x)) :
    s.Origins (Piece.separated ", " (xs.map f)) := by
  refine Piece.forall_separated (.word (.fixed (by decide))) fun ps hps => ?_
  obtain ⟨x, hx, rfl⟩ := List.mem_map.mp hps
  exact h x hx

end Origins

theorem origins_tablePieces {reference : String} (h : reference ∈ s.references) :
    s.Origins (tablePieces reference) := by
  simp only [tablePieces]
  split
  · next name short read =>
      have table : name ∈ s.namesAt .table :=
        List.mem_filterMap.mpr ⟨reference, h, by rw [read]; rfl⟩
      have shortName : short ∈ s.namesAt .shortName :=
        List.mem_filterMap.mpr ⟨reference, h, by rw [read]; rfl⟩
      exact .cons (.name .table table) (.cons (.word (.fixed (by decide)))
        (.cons (.name .shortName shortName) .nil))
  · next name read =>
      have table : name ∈ s.namesAt .table :=
        List.mem_filterMap.mpr ⟨reference, h, by rw [read]; rfl⟩
      exact .cons (.name .table table) .nil
  · exact .cons (.halt _) .nil

theorem origins_table : s.Origins (tablePieces (s.table.getD "")) :=
  origins_tablePieces (List.mem_cons_self ..)

theorem origins_projection : s.Origins (projectionPieces s.columns) := by
  simp only [projectionPieces]
  split
  · exact .cons (.word (.fixed (by decide))) .nil
  · refine .list fun column hcolumn => ?_
    simp only [columnPieces]
    split
    · exact .cons (.name .expression hcolumn) .nil
    · exact .cons (.expression hcolumn) .nil

theorem origins_join {j : Join} (hj : j ∈ s.joins) : s.Origins (joinPieces j) := by
  have table : s.Origins (tablePieces j.table) :=
    origins_tablePieces (List.mem_cons_of_mem _ (List.mem_map.mpr ⟨j, hj, rfl⟩))
  refine .append (.cons (.word (.join j.kind)) table) (.cons (.word (.fixed (by decide))) ?_)
  have sides (name : String) (hname : name ∈ j.condition.sides) : name ∈ s.namesAt .side :=
    List.mem_flatMap.mpr ⟨j, hj, hname⟩
  have raw (text : String) (htext : j.condition.raw? = some text) : text ∈ s.rawTexts := by
    simp only [rawTexts, List.mem_append, List.mem_filterMap]
    exact .inl (.inl (.inl ⟨j, hj, htext⟩))
  cases hcondition : j.condition with
  | text condition => exact .cons (.condition (raw condition (by rw [hcondition]; rfl))) .nil
  | columns left operator right =>
      rw [hcondition] at sides
      exact .cons (.name .side (sides left (by simp [JoinCondition.sides])))
        (.cons (.word (.operator operator))
          (.cons (.name .side (sides right (by simp [JoinCondition.sides]))) .nil))

theorem origins_leaf {field : String} (h : field ∈ s.namesAt .field) (operator : Operator)
    (operand : Operand) : s.Origins (Atom.leafPieces field operator operand) := by
  have name : s.Origin (.name field) := .name .field h
  have comparison : s.Origin (.text (" " ++ operator.text ++ " ")) := .word (.operator operator)
  cases operand with
  | one v =>
      simp only [Atom.leafPieces]
      split
      · exact .cons name (.cons (.word (.fixed (by decide))) .nil)
      · split
        · exact .cons name (.cons (.word (.fixed (by decide))) .nil)
        · exact .cons name (.cons comparison (.cons (.bound v) .nil))
  | list vs =>
      have places : s.Origins (Piece.separated ", " (vs.map fun v => [.bound v])) :=
        .list fun v _ => .cons (.bound v) .nil
      exact .append (.append (.cons name (.cons (.word (.listOperator operator)) .nil)) places)
        (.cons (.word (.fixed (by decide))) .nil)
  | range low high =>
      exact .cons name (.cons comparison (.cons (.bound low)
        (.cons (.word (.fixed (by decide))) (.cons (.bound high) .nil))))

theorem origins_token {t : Token} (ht : t ∈ s.conditionTokens) : s.Origins t.pieces := by
  cases t with
  | atom a =>
      cases a with
      | leaf field operator operand =>
          exact origins_leaf (List.mem_filterMap.mpr ⟨_, ht, rfl⟩) operator operand
      | fragment sql params =>
          have raw : sql ∈ s.rawTexts := by
            simp only [rawTexts, List.mem_append, List.mem_filterMap]
            exact .inl (.inl (.inr ⟨_, ht, rfl⟩))
          exact .cons (.fragment raw) .nil
      | stray v => exact .cons (.halt _) .nil
  | connector c => exact .cons (.word (.connector c)) .nil
  | opening | closing => exact .cons (.word (.fixed (by decide))) .nil

theorem origins_conditions {keyword : String} {nodes : List Node}
    (word : " " ++ keyword ++ " " ∈ fixedWords)
    (h : ∀ t ∈ Node.clauseTokens nodes, t ∈ s.conditionTokens) :
    s.Origins (conditionPieces keyword nodes) := by
  simp only [conditionPieces]
  split
  · exact .nil
  · exact .cons (.word (.fixed word)) (.flatMap fun t ht => origins_token (h t ht))

theorem origins_where : s.Origins (conditionPieces "WHERE" s.predicates) :=
  origins_conditions (by decide) fun _ ht => List.mem_append_left _ ht

theorem origins_having : s.Origins (conditionPieces "HAVING" s.having) :=
  origins_conditions (by decide) fun _ ht => List.mem_append_right _ ht

theorem origins_grouping : s.Origins (groupingPieces s.grouping) := by
  simp only [groupingPieces]
  split
  · exact .nil
  · refine .cons (.word (.fixed (by decide))) (.list fun e he => ?_)
    simp only [groupEntryPieces]
    split
    · next sql source =>
        have raw : sql ∈ s.rawTexts := by
          simp only [rawTexts, List.mem_append, List.mem_filterMap]
          exact .inl (.inr ⟨e, he, by rw [source]; rfl⟩)
        exact .cons (.fragment raw) .nil
    · next name source =>
        exact .cons (.name .grouping (List.mem_filterMap.mpr ⟨e, he, by rw [source]; rfl⟩)) .nil

theorem origins_ordering : s.Origins (orderingPieces s.ordering) := by
  simp only [orderingPieces]
  split
  · exact .nil
  · refine .cons (.word (.fixed (by decide))) (.list fun e he => ?_)
    simp only [orderEntryPieces]
    split
    · next sql source =>
        have raw : sql ∈ s.rawTexts := by
          simp only [rawTexts, List.mem_append, List.mem_filterMap]
          exact .inr ⟨e, he, by rw [source]; rfl⟩
        exact .cons (.fragment raw) .nil
    · next name source =>
        exact .cons (.name .ordering (List.mem_filterMap.mpr ⟨e, he, by rw [source]; rfl⟩))
          (.cons (.word (.direction e.direction)) .nil)

theorem origins_paging (dialect : String) (ordered : Bool) (limit offset : Option Nat) :
    s.Origins (pagingPieces (Dialect.paging dialect) ordered limit offset) := by
  refine pagingPieces_induction (P := s.Origins) .nil .append (fun keyword hkeyword n _ => ?_)
    (fun word hword => ?_) (fun stand hstand => ?_) ordered
  · simp only [numberPieces]
    split
    · exact .cons (.word (.number hkeyword n)) .nil
    · exact .cons (.halt _) .nil
  · have fixed : word ∈ fixedWords := by
      revert word
      decide
    exact .cons (.word (.fixed fixed)) .nil
  · -- two numbers stand for a limit that is absent, each where a dialect needs it
    have fixed : " LIMIT " ++ stand ∈ fixedWords := by
      simp only [Dialect.paging] at hstand
      split at hstand
      · cases hstand
      · split at hstand
        · cases hstand
          decide
        · split at hstand <;> cases hstand
          decide
    exact .cons (.word (.fixed fixed)) .nil

theorem origins_select (dialect : String) (s : Statement) :
    s.Origins (s.selectPieces dialect) := by
  have head : (if s.distinct then "SELECT DISTINCT " else "SELECT ") ∈ fixedWords := by
    cases s.distinct <;> decide
  have joins : s.Origins (s.joins.flatMap joinPieces) := .flatMap fun _ hj => origins_join hj
  have source : s.Origins (.text " FROM " :: tablePieces (s.table.getD "")) :=
    .cons (.word (.fixed (by decide))) origins_table
  have core : s.Origins s.coreSelectPieces :=
    ((((Origins.cons (.word (.fixed head)) origins_projection).append source).append joins).append
      origins_where |>.append origins_grouping).append origins_having
  exact (core.append origins_ordering).append (origins_paging dialect _ _ _)

theorem origins_insert (s : Statement) : s.Origins s.insertPieces := by
  have target : s.Origins (.text "INSERT INTO " :: tablePieces (s.table.getD "")) :=
    .cons (.word (.fixed (by decide))) origins_table
  have columns : s.Origins (.text " (" :: Piece.separated ", "
      (s.values.map fun entry => [.name entry.1])) :=
    .cons (.word (.fixed (by decide))) (.list fun entry hentry =>
      .cons (.name .value (List.mem_map.mpr ⟨entry, hentry, rfl⟩)) .nil)
  have values : s.Origins (.text ") VALUES (" :: Piece.separated ", "
      (s.values.map fun entry => [.bound entry.2])) :=
    .cons (.word (.fixed (by decide))) (.list fun entry _ => .cons (.bound entry.2) .nil)
  exact ((target.append columns).append values).append (.cons (.word (.fixed (by decide))) .nil)

theorem origins_update (s : Statement) : s.Origins s.updatePieces := by
  have target : s.Origins (.text "UPDATE " :: tablePieces (s.table.getD "")) :=
    .cons (.word (.fixed (by decide))) origins_table
  have assignments : s.Origins (.text " SET " :: Piece.separated ", "
      (s.values.map fun entry => [.name entry.1, .text " = ", .bound entry.2])) :=
    .cons (.word (.fixed (by decide))) (.list fun entry hentry =>
      .cons (.name .value (List.mem_map.mpr ⟨entry, hentry, rfl⟩))
        (.cons (.word (.fixed (by decide))) (.cons (.bound entry.2) .nil)))
  exact (target.append assignments).append origins_where

theorem origins_delete (s : Statement) : s.Origins s.deletePieces := by
  have target : s.Origins (.text "DELETE FROM " :: tablePieces (s.table.getD "")) :=
    .cons (.word (.fixed (by decide))) origins_table
  exact target.append origins_where

/-- Whatever a statement is compiled for, each of its pieces has an origin. -/
theorem origins_piecesFor {k : Compiler} {operation : Operation} {ps : List Piece}
    (h : s.piecesFor k operation = .ok ps) : s.Origins ps := by
  obtain ⟨-, rfl⟩ | ⟨-, rfl⟩ | ⟨-, rfl⟩ | ⟨-, rfl⟩ := piecesFor_cases h
  · exact s.origins_select k.dialect
  · exact s.origins_insert
  · exact s.origins_update
  · exact s.origins_delete

end Statement
end FluentSql
