import Mathlib.Data.List.Forall2
import FluentSql.Compile.Statement
import FluentSql.Proofs.Outcome

/-!
Statements that differ in bind values only. They become pieces that differ in bind values only, meet
the same refusals on the way, and reserve the same names. A value is looked at in one place:
operators that test for absence or presence ask whether it is there.
-/

namespace FluentSql

/-- Parameters of one container: lists of one length, or maps with the same keys in order. -/
def FragmentParams.Alike : FragmentParams → FragmentParams → Prop
  | .list xs, .list ys => xs.length = ys.length
  | .map es, .map fs => Fields.keys es = Fields.keys fs
  | _, _ => False

abbrev FragmentParams.AlikeOption := Option.Rel FragmentParams.Alike

/-- Operands of one form. Where the operator tests for absence or presence, the same are absent. -/
def Operand.Alike (operator : Operator) : Operand → Operand → Prop
  | .one v, .one w =>
    (operator.testsNull || operator.testsNotNull) = true → v.isNone = w.isNone
  | .list vs, .list ws => vs.length = ws.length
  | .range _ _, .range _ _ => True
  | _, _ => False

namespace Node

mutual

/-- Nodes of one shape that differ in bind values only. -/
def Alike : Node → Node → Prop
  | .leaf field operator operand c, .leaf field' operator' operand' c' =>
    field = field' ∧ operator = operator' ∧ c = c' ∧ operand.Alike operator operand'
  | .raw sql params c, .raw sql' params' c' =>
    sql = sql' ∧ c = c' ∧ FragmentParams.AlikeOption params params'
  | .group items c, .group items' c' => c = c' ∧ AlikeAll items items'
  | .stray v, .stray w => v.typeName = w.typeName
  | _, _ => False

def AlikeAll : List Node → List Node → Prop
  | [], [] => True
  | n :: ns, m :: ms => Alike n m ∧ AlikeAll ns ms
  | _, _ => False

end

end Node

def Entry.Alike (e f : Entry) : Prop :=
  e.source = f.source ∧ FragmentParams.AlikeOption e.params f.params

def OrderEntry.Alike (e f : OrderEntry) : Prop :=
  Entry.Alike e.toEntry f.toEntry ∧ e.direction = f.direction

/-- Parameters of a statement given as text, with keys of any kind. -/
def Params.Alike : Params → Params → Prop
  | .list xs, .list ys => xs.length = ys.length
  | .map es, .map fs => es.map (·.1) = fs.map (·.1)
  | _, _ => False

/-- Statements that agree on everything except bind values. -/
structure Statement.Alike (s t : Statement) : Prop where
  operation : s.operation = t.operation
  table : s.table = t.table
  columns : s.columns = t.columns
  distinct : s.distinct = t.distinct
  values : Fields.keys s.values = Fields.keys t.values
  joins : s.joins = t.joins
  predicates : Node.AlikeAll s.predicates t.predicates
  having : Node.AlikeAll s.having t.having
  grouping : List.Forall₂ Entry.Alike s.grouping t.grouping
  ordering : List.Forall₂ OrderEntry.Alike s.ordering t.ordering
  limit : s.limit = t.limit
  offset : s.offset = t.offset
  rawSql : s.rawSql = t.rawSql
  rawParams : Option.Rel Params.Alike s.rawParams t.rawParams
  unconditional : s.unconditional = t.unconditional

theorem FragmentParams.alikeOption_refl : ∀ p : Option FragmentParams, AlikeOption p p
  | none => .none
  | some (.list _) => .some rfl
  | some (.map _) => .some rfl

namespace Piece

inductive Alike : Piece → Piece → Prop
  | text (s : String) : Alike (.text s) (.text s)
  | name (s : String) : Alike (.name s) (.name s)
  | bound (v w : Value) : Alike (.bound v) (.bound w)
  | fragment (clause : FragmentClause) (sql : String) {p q : Option FragmentParams}
      (h : FragmentParams.AlikeOption p q) : Alike (.fragment clause sql p) (.fragment clause sql q)
  | halt (e : Error) : Alike (.halt e) (.halt e)

abbrev AlikeAll : List Piece → List Piece → Prop := List.Forall₂ Alike

theorem alike_refl : ∀ p : Piece, Alike p p
  | .text s => .text s
  | .name s => .name s
  | .bound v => .bound v v
  | .fragment clause sql p => .fragment clause sql (FragmentParams.alikeOption_refl p)
  | .halt e => .halt e

theorem alikeAll_refl (ps : List Piece) : AlikeAll ps ps :=
  List.forall₂_same.mpr fun p _ => alike_refl p

theorem AlikeAll.append {ps qs ps' qs' : List Piece} (h : AlikeAll ps qs) (h' : AlikeAll ps' qs') :
    AlikeAll (ps ++ ps') (qs ++ qs') :=
  List.rel_append h h'

theorem alikeAll_separated (separator : String) {pss qss : List (List Piece)}
    (h : List.Forall₂ AlikeAll pss qss) :
    AlikeAll (separated separator pss) (separated separator qss) := by
  induction h with
  | nil => exact .nil
  | @cons ps qs pss qss hp hrest ih =>
      cases hrest with
      | nil => exact hp
      | cons hp' hrest' => exact AlikeAll.append hp (.cons (.text separator) ih)

end Piece

theorem Atom.leafPieces_alike (field : String) (operator : Operator) {x y : Operand}
    (h : x.Alike operator y) :
    Piece.AlikeAll (leafPieces field operator x) (leafPieces field operator y) := by
  match x, y, h with
  | .one v, .one w, h =>
      by_cases tests : (operator.testsNull || operator.testsNotNull) = true
      · have absent : v.isNone = w.isNone := h tests
        simp only [leafPieces, absent]
        split
        · exact Piece.alikeAll_refl _
        · split
          · exact Piece.alikeAll_refl _
          · exact .cons (.name _) (.cons (.text _) (.cons (.bound v w) .nil))
      · simp only [Bool.or_eq_true, not_or, Bool.not_eq_true] at tests
        simp only [leafPieces, tests.1, tests.2, Bool.and_false, Bool.false_eq_true, if_false]
        exact .cons (.name _) (.cons (.text _) (.cons (.bound v w) .nil))
  | .list vs, .list ws, h =>
      have items : List.Forall₂ Piece.AlikeAll (vs.map fun v => [Piece.bound v])
          (ws.map fun w => [Piece.bound w]) := by
        rw [List.forall₂_map_left_iff, List.forall₂_map_right_iff, List.forall₂_iff_zip]
        exact ⟨h, fun _ => .cons (.bound _ _) .nil⟩
      exact ((Piece.alikeAll_refl _).append (Piece.alikeAll_separated ", " items)).append
        (Piece.alikeAll_refl _)
  | .range low high, .range low' high', _ =>
      exact .cons (.name _) (.cons (.text _) (.cons (.bound low low')
        (.cons (.text _) (.cons (.bound high high') .nil))))

def Atom.Alike : Atom → Atom → Prop
  | .leaf field operator x, .leaf field' operator' y =>
    field = field' ∧ operator = operator' ∧ x.Alike operator y
  | .fragment sql p, .fragment sql' q => sql = sql' ∧ FragmentParams.AlikeOption p q
  | .stray v, .stray w => v.typeName = w.typeName
  | _, _ => False

inductive Token.Alike : Token → Token → Prop
  | atom {a b : Atom} (h : a.Alike b) : Alike (.atom a) (.atom b)
  | connector (c : Connector) : Alike (.connector c) (.connector c)
  | opening : Alike .opening .opening
  | closing : Alike .closing .closing

theorem Atom.pieces_alike {a b : Atom} (h : a.Alike b) : Piece.AlikeAll a.pieces b.pieces := by
  match a, b, h with
  | .leaf field operator x, .leaf _ _ y, ⟨rfl, rfl, hxy⟩ =>
      exact leafPieces_alike field operator hxy
  | .fragment sql p, .fragment _ q, ⟨rfl, hpq⟩ => exact .cons (.fragment _ sql hpq) .nil
  | .stray v, .stray w, h =>
      have same : v.typeName = w.typeName := h
      simp only [pieces, same]
      exact Piece.alikeAll_refl _

theorem Token.pieces_alike {t u : Token} (h : t.Alike u) : Piece.AlikeAll t.pieces u.pieces := by
  cases h with
  | atom h => exact Atom.pieces_alike h
  | connector _ | opening | closing => exact Piece.alikeAll_refl _

namespace Node

theorem connector_alike {n m : Node} (h : n.Alike m) : n.connector = m.connector := by
  match n, m, h with
  | .leaf .., .leaf .., h => exact h.2.2.1
  | .raw .., .raw .., h => exact h.2.1
  | .group .., .group .., h => exact h.1
  | .stray _, .stray _, _ => rfl

theorem alikeAll_length : ∀ {ns ms : List Node}, AlikeAll ns ms → ns.length = ms.length
  | [], [], _ => rfl
  | _ :: _, _ :: _, h => congrArg Nat.succ (alikeAll_length h.2)

abbrev TokensAlike : List Token → List Token → Prop := List.Forall₂ Token.Alike

mutual

theorem tokens_alike (isolated : Bool) :
    ∀ {n m : Node}, n.Alike m → TokensAlike (tokens isolated n) (tokens isolated m)
  | .leaf .., .leaf .., h => .cons (.atom ⟨h.1, h.2.1, h.2.2.2⟩) .nil
  | .raw .., .raw .., h => .cons (.atom ⟨h.1, h.2.2⟩) .nil
  | .stray _, .stray _, h => .cons (.atom h) .nil
  | .group [] _, .group [] _, _ => by
      cases isolated
      · exact .nil
      · exact .cons .opening (.cons .closing .nil)
  | .group [n] _, .group [m] _, h => by
      have inner : TokensAlike (tokens isolated n) (tokens isolated m) :=
        tokens_alike isolated h.2.1
      simpa only [tokens] using inner
  | .group (n :: n' :: ns) _, .group (m :: m' :: ms) _, h => by
      have inner : TokensAlike (sequence true (n :: n' :: ns)) (sequence true (m :: m' :: ms)) :=
        sequence_alike true h.2
      cases isolated
      · exact inner
      · exact .cons .opening (List.rel_append inner (.cons .closing .nil))

theorem sequence_alike (isolated : Bool) : ∀ {ns ms : List Node}, AlikeAll ns ms →
    TokensAlike (sequence isolated ns) (sequence isolated ms)
  | [], [], _ => .nil
  | _ :: _, _ :: _, h => List.rel_append (tokens_alike isolated h.1) (continued_alike isolated h.2)

theorem continued_alike (isolated : Bool) : ∀ {ns ms : List Node}, AlikeAll ns ms →
    TokensAlike (continued isolated ns) (continued isolated ms)
  | [], [], _ => .nil
  | n :: _, m :: _, h => by
      have same : n.connector = m.connector := connector_alike h.1
      simp only [continued, same]
      exact .cons (.connector _)
        (List.rel_append (tokens_alike isolated h.1) (continued_alike isolated h.2))

end

theorem clauseTokens_alike {ns ms : List Node} (h : AlikeAll ns ms) :
    TokensAlike (clauseTokens ns) (clauseTokens ms) := by
  simp only [clauseTokens, alikeAll_length h]
  exact sequence_alike _ h

end Node

namespace Statement

open Piece (AlikeAll alikeAll_refl alikeAll_separated)

theorem conditionPieces_alike (keyword : String) {ns ms : List Node} (h : Node.AlikeAll ns ms) :
    AlikeAll (conditionPieces keyword ns) (conditionPieces keyword ms) := by
  match ns, ms, h with
  | [], [], _ => exact .nil
  | n :: ns, m :: ms, h =>
      exact .cons (.text _)
        (List.rel_flatMap (Node.clauseTokens_alike h) fun _ _ ht => Token.pieces_alike ht)

theorem groupEntryPieces_alike {e f : Entry} (h : e.Alike f) :
    AlikeAll (groupEntryPieces e) (groupEntryPieces f) := by
  simp only [groupEntryPieces, h.1]
  cases f.source with
  | raw sql => exact .cons (.fragment _ sql h.2) .nil
  | column name => exact alikeAll_refl _

theorem orderEntryPieces_alike {e f : OrderEntry} (h : e.Alike f) :
    AlikeAll (orderEntryPieces e) (orderEntryPieces f) := by
  simp only [orderEntryPieces, h.1.1, h.2]
  cases f.source with
  | raw sql => exact .cons (.fragment _ sql h.1.2) .nil
  | column name => exact alikeAll_refl _

theorem groupingPieces_alike {es fs : List Entry} (h : List.Forall₂ Entry.Alike es fs) :
    AlikeAll (groupingPieces es) (groupingPieces fs) := by
  match es, fs, h with
  | [], [], _ => exact .nil
  | _ :: _, _ :: _, h =>
      exact .cons (.text _)
        (alikeAll_separated _ (List.rel_map (fun _ _ he => groupEntryPieces_alike he) h))

theorem orderingPieces_alike {es fs : List OrderEntry} (h : List.Forall₂ OrderEntry.Alike es fs) :
    AlikeAll (orderingPieces es) (orderingPieces fs) := by
  match es, fs, h with
  | [], [], _ => exact .nil
  | _ :: _, _ :: _, h =>
      exact .cons (.text _)
        (alikeAll_separated _ (List.rel_map (fun _ _ he => orderEntryPieces_alike he) h))

/-- The entries of a map of values, written one by one. -/
theorem valuePieces_alike (write : String × Value → List Piece)
    (hwrite : ∀ name v w, AlikeAll (write (name, v)) (write (name, w)))
    {es fs : List (String × Value)} (h : Fields.keys es = Fields.keys fs) :
    List.Forall₂ AlikeAll (es.map write) (fs.map write) := by
  induction es generalizing fs with
  | nil =>
      cases fs with
      | nil => exact .nil
      | cons f fs => simp [Fields.keys] at h
  | cons e es ih =>
      cases fs with
      | nil => simp [Fields.keys] at h
      | cons f fs =>
          obtain ⟨name, v⟩ := e
          obtain ⟨name', w⟩ := f
          simp only [Fields.keys, List.map_cons, List.cons.injEq] at h
          obtain ⟨rfl, hrest⟩ := h
          exact .cons (hwrite name v w) (ih hrest)

variable {s t : Statement}

theorem isPaginated_alike (h : s.Alike t) : s.isPaginated = t.isPaginated := by
  simp only [isPaginated, h.limit, h.offset]

theorem forall₂_isEmpty {α β : Type} {r : α → β → Prop} {xs : List α} {ys : List β}
    (h : List.Forall₂ r xs ys) : xs.isEmpty = ys.isEmpty := by
  cases h <;> rfl

theorem alikeAll_isEmpty {ns ms : List Node} (h : Node.AlikeAll ns ms) :
    ns.isEmpty = ms.isEmpty := by
  match ns, ms, h with
  | [], [], _ => rfl
  | _ :: _, _ :: _, _ => rfl

theorem coreSelectPieces_alike (h : s.Alike t) :
    AlikeAll s.coreSelectPieces t.coreSelectPieces := by
  simp only [coreSelectPieces, h.distinct, h.columns, h.table, h.joins]
  exact ((AlikeAll.append (alikeAll_refl _) (conditionPieces_alike _ h.predicates)).append
    (groupingPieces_alike h.grouping)).append (conditionPieces_alike _ h.having)

theorem selectPieces_alike (dialect : String) (h : s.Alike t) :
    AlikeAll (s.selectPieces dialect) (t.selectPieces dialect) := by
  simp only [selectPieces, forall₂_isEmpty h.ordering, h.limit, h.offset]
  exact ((coreSelectPieces_alike h).append (orderingPieces_alike h.ordering)).append
    (alikeAll_refl _)

theorem insertPieces_alike (h : s.Alike t) : AlikeAll s.insertPieces t.insertPieces := by
  have columns : AlikeAll (Piece.separated ", " (s.values.map fun entry => [.name entry.1]))
      (Piece.separated ", " (t.values.map fun entry => [.name entry.1])) :=
    alikeAll_separated _ (valuePieces_alike _ (fun _ _ _ => alikeAll_refl _) h.values)
  have places : AlikeAll (Piece.separated ", " (s.values.map fun entry => [.bound entry.2]))
      (Piece.separated ", " (t.values.map fun entry => [.bound entry.2])) :=
    alikeAll_separated _ (valuePieces_alike _ (fun _ v w => .cons (.bound v w) .nil) h.values)
  simp only [insertPieces, h.table]
  exact (((alikeAll_refl _).append (.cons (.text _) columns)).append
    (.cons (.text _) places)).append (alikeAll_refl _)

theorem updatePieces_alike (h : s.Alike t) : AlikeAll s.updatePieces t.updatePieces := by
  have assignments : AlikeAll
      (Piece.separated ", " (s.values.map fun entry =>
        [.name entry.1, .text " = ", .bound entry.2]))
      (Piece.separated ", " (t.values.map fun entry =>
        [.name entry.1, .text " = ", .bound entry.2])) :=
    alikeAll_separated _ (valuePieces_alike _
      (fun _ v w => .cons (.name _) (.cons (.text _) (.cons (.bound v w) .nil))) h.values)
  simp only [updatePieces, h.table]
  exact ((alikeAll_refl _).append (.cons (.text _) assignments)).append
    (conditionPieces_alike _ h.predicates)

theorem deletePieces_alike (h : s.Alike t) : AlikeAll s.deletePieces t.deletePieces := by
  simp only [deletePieces, h.table]
  exact (alikeAll_refl _).append (conditionPieces_alike _ h.predicates)

/-- Which clauses are in use, and so every refusal, is the same for alike statements. -/
theorem usedClauses_alike (h : s.Alike t) : s.usedClauses = t.usedClauses := by
  simp only [usedClauses, h.columns, h.distinct, h.joins, alikeAll_isEmpty h.predicates,
    forall₂_isEmpty h.grouping, alikeAll_isEmpty h.having, forall₂_isEmpty h.ordering,
    isPaginated_alike h]

theorem rejectClauses_alike (operation : Operation) (allowed : List String) (h : s.Alike t) :
    s.rejectClauses operation allowed = t.rejectClauses operation allowed := by
  simp only [rejectClauses, usedClauses_alike h]

theorem values_isEmpty_alike (h : s.Alike t) : s.values.isEmpty = t.values.isEmpty := by
  have keys : (Fields.keys s.values).isEmpty = (Fields.keys t.values).isEmpty := by rw [h.values]
  simpa only [Fields.keys, List.isEmpty_map] using keys

theorem requireValues_alike (operation : Operation) (h : s.Alike t) :
    s.requireValues operation = t.requireValues operation := by
  simp only [requireValues, values_isEmpty_alike h]

theorem guardWrite_alike (operation : Operation) (allowed : Bool) (h : s.Alike t) :
    s.guardWrite operation allowed = t.guardWrite operation allowed := by
  simp only [guardWrite, alikeAll_isEmpty h.predicates, h.unconditional, tableText, h.table]

theorem requireTable_alike (h : s.Alike t) : s.requireTable = t.requireTable := by
  simp only [requireTable, h.table]

theorem piecesFor_alike (k : Compiler) (operation : Operation) (h : s.Alike t) :
    Agree AlikeAll (s.piecesFor k operation) (t.piecesFor k operation) := by
  cases operation with
  | select => exact selectPieces_alike k.dialect h
  | insert =>
      simp only [piecesFor, rejectClauses_alike _ _ h, requireValues_alike _ h]
      exact (Agree.same _).bind fun _ _ _ => (Agree.same _).bind fun _ _ _ =>
        insertPieces_alike h
  | update =>
      simp only [piecesFor, rejectClauses_alike _ _ h, requireValues_alike _ h,
        guardWrite_alike _ _ h]
      exact (Agree.same _).bind fun _ _ _ => (Agree.same _).bind fun _ _ _ =>
        (Agree.same _).bind fun _ _ _ => updatePieces_alike h
  | delete =>
      simp only [piecesFor, rejectClauses_alike _ _ h, guardWrite_alike _ _ h]
      exact (Agree.same _).bind fun _ _ _ => (Agree.same _).bind fun _ _ _ =>
        deletePieces_alike h
  | raw => exact Agree.error _

theorem countPieces_alike (k : Compiler) (h : s.Alike t) :
    AlikeAll (k.countPieces s) (k.countPieces t) := by
  have unordered : { s with ordering := [] }.Alike { t with ordering := [] } :=
    { h with ordering := .nil }
  have counted (columns : List String) : { s with columns, ordering := [] }.Alike
      { t with columns, ordering := [] } :=
    { h with columns := rfl, ordering := .nil }
  have inner : (if s.isPaginated then s else { s with ordering := [] }).Alike
      (if t.isPaginated then t else { t with ordering := [] }) := by
    rw [isPaginated_alike h]
    split
    · exact h
    · exact unordered
  have wrapped : (!s.grouping.isEmpty || !s.having.isEmpty || s.distinct || s.isPaginated) =
      (!t.grouping.isEmpty || !t.having.isEmpty || t.distinct || t.isPaginated) := by
    rw [forall₂_isEmpty h.grouping, alikeAll_isEmpty h.having, h.distinct, isPaginated_alike h]
  unfold Compiler.countPieces
  rw [wrapped]
  split
  · exact AlikeAll.append (.cons (.text _) (selectPieces_alike _ inner)) (alikeAll_refl _)
  · exact selectPieces_alike _ (counted _)

end Statement

namespace FragmentParams

abbrev AlikeEach : List FragmentParams → List FragmentParams → Prop :=
  List.Forall₂ Alike

theorem isEmpty_alike {p q : FragmentParams} (h : p.Alike q) : p.isEmpty = q.isEmpty := by
  match p, q, h with
  | .list xs, .list ys, lengths => cases xs <;> cases ys <;> simp_all [Alike, isEmpty]
  | .map es, .map fs, keys => cases es <;> cases fs <;> simp_all [Alike, isEmpty, Fields.keys]

theorem claimedNames_alike {p q : FragmentParams} (h : p.Alike q) :
    p.claimedNames = q.claimedNames := by
  match p, q, h with
  | .list _, .list _, _ => rfl
  | .map es, .map fs, h =>
      have byKeys (es : List (String × Value)) : (map es).claimedNames =
          (Fields.keys es).map fun key => String.ofList (key.toList.dropWhile (· == ':')) := by
        simp only [claimedNames, Fields.keys, List.map_map, Function.comp_def]
      have keys : Fields.keys es = Fields.keys fs := h
      rw [byKeys, byKeys, keys]

theorem claimedNames_alikeEach {ps qs : List FragmentParams} (h : AlikeEach ps qs) :
    ps.flatMap claimedNames = qs.flatMap claimedNames := by
  induction h with
  | nil => rfl
  | cons hp _ ih => simp only [List.flatMap_cons, claimedNames_alike hp, ih]

theorem filterMap_alikeEach {α : Type} (params : α → Option FragmentParams) {r : α → α → Prop}
    (hr : ∀ e f, r e f → AlikeOption (params e) (params f)) {es fs : List α}
    (h : List.Forall₂ r es fs) : AlikeEach (es.filterMap params) (fs.filterMap params) :=
  List.rel_filterMap (fun e f hef => hr e f hef) h

end FragmentParams

namespace Node

mutual

theorem fragmentParams_alike : ∀ {n m : Node}, n.Alike m →
    FragmentParams.AlikeEach n.fragmentParams m.fragmentParams
  | .leaf .., .leaf .., _ => .nil
  | .raw _ p _, .raw _ q _, h => by
      cases h.2.2 with
      | none => exact .nil
      | some hpq => exact .cons hpq .nil
  | .group .., .group .., h => fragmentParamsOf_alike h.2
  | .stray _, .stray _, _ => .nil

theorem fragmentParamsOf_alike : ∀ {ns ms : List Node}, AlikeAll ns ms →
    FragmentParams.AlikeEach (fragmentParamsOf ns) (fragmentParamsOf ms)
  | [], [], _ => .nil
  | _ :: _, _ :: _, h =>
      List.rel_append (fragmentParams_alike h.1) (fragmentParamsOf_alike h.2)

end

end Node

theorem Statement.reservedNames_alike {s t : Statement} (h : s.Alike t) :
    s.reservedNames = t.reservedNames := by
  refine FragmentParams.claimedNames_alikeEach
    (List.rel_append (List.rel_append (List.rel_append ?_ ?_) ?_) ?_)
  · exact Node.fragmentParamsOf_alike h.predicates
  · exact Node.fragmentParamsOf_alike h.having
  · exact FragmentParams.filterMap_alikeEach _ (fun _ _ he => he.2) h.grouping
  · exact FragmentParams.filterMap_alikeEach _ (fun _ _ he => he.1.2) h.ordering

end FluentSql
