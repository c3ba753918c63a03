import FluentSql.Proofs.GuardedWrites
import FluentSql.Proofs.PreviewedRuns
import FluentSql.Proofs.RegroupedConditions

/-!
Statements in which conditions become a group. Every operation that takes the conditions writes
them in one place of its text, so the text gains the parentheses of the group there and nothing
else, and the same parameters are collected. Terminal calls refuse such statements for the same
reasons and order the same of a database.
-/

namespace FluentSql

def Statement.withConditions (s : Statement) (predicates having : List Node) : Statement :=
  { s with predicates := predicates, having := having }

/-- A statement in which conditions of one clause become a group. -/
inductive Statement.Regrouped (items : List Node) (alone : Prop) : Statement → Statement → Prop
  | predicates (s : Statement) {nodes nodes' : List Node} (having : List Node)
      (h : Node.Regrouped items alone nodes nodes') :
      Regrouped items alone (s.withConditions nodes having) (s.withConditions nodes' having)
  | having (s : Statement) (predicates : List Node) {nodes nodes' : List Node}
      (h : Node.Regrouped items alone nodes nodes') :
      Regrouped items alone (s.withConditions predicates nodes)
        (s.withConditions predicates nodes')

/-- Pieces with parentheses around those of a group, unless it has one item or its level to
itself. -/
abbrev Piece.Regrouped (items : List Node) (alone : Prop) : List Piece → List Piece → Prop :=
  Parenthesized (.text "(") (.text ")") ((Node.sequence true items).flatMap Token.pieces)
    (items.length = 1 ∨ alone)

namespace Statement.Regrouped

variable {items : List Node} {alone : Prop} {s s' : Statement}

/-- Whatever changes a statement without a look at its conditions. -/
theorem map (f : Statement → Statement) (h : Statement.Regrouped items alone s s')
    (kept : ∀ s predicates having,
      f (s.withConditions predicates having) = (f s).withConditions predicates having) :
    Statement.Regrouped items alone (f s) (f s') := by
  cases h with
  | predicates s having h =>
      rw [kept, kept]
      exact .predicates (f s) having h
  | having s predicates h =>
      rw [kept, kept]
      exact .having (f s) predicates h

/-- Whatever is read off a statement without a look at its conditions. -/
theorem read {α : Type} (f : Statement → α) (h : Statement.Regrouped items alone s s')
    (kept : ∀ s predicates having, f (s.withConditions predicates having) = f s) : f s' = f s := by
  cases h with
  | predicates s having h | having s predicates h => rw [kept, kept]

theorem reservedNames_eq (h : Statement.Regrouped items alone s s') :
    s'.reservedNames = s.reservedNames := by
  cases h with
  | predicates s _ h | having s _ h =>
      simp only [reservedNames, fragmentParams, withConditions, h.fragmentParamsOf_eq]

section

variable (given : items ≠ []) (joined : ∀ item ∈ items, item.connector = .and)
include given

theorem usedClauses_eq (h : Statement.Regrouped items alone s s') :
    s'.usedClauses = s.usedClauses := by
  cases h with
  | predicates s _ h | having s _ h =>
      obtain ⟨filled, filled'⟩ := h.ne_nil given
      simp only [usedClauses, withConditions, List.isEmpty_eq_false_iff.mpr filled,
        List.isEmpty_eq_false_iff.mpr filled', isPaginated]

theorem not_without_conditions (h : Statement.Regrouped items alone s s') :
    ¬ (s.predicates = [] ∧ s.having = []) := by
  rintro ⟨unfiltered, ungrouped⟩
  cases h with
  | predicates s _ h => exact (h.ne_nil given).1 unfiltered
  | having s _ h => exact (h.ne_nil given).1 ungrouped

include joined

theorem conditionPieces {nodes nodes' : List Node} (h : Node.Regrouped items alone nodes nodes')
    (keyword : String) : Piece.Regrouped items alone (Statement.conditionPieces keyword nodes)
      (Statement.conditionPieces keyword nodes') := by
  obtain ⟨filled, filled'⟩ := h.ne_nil given
  have tokens := (h.tokens given joined false .and).flatMap (f := Token.pieces) rfl rfl
  rw [← Node.clauseTokens_eq, ← Node.clauseTokens_eq] at tokens
  have whole := tokens.around [.text (" " ++ keyword ++ " ")] []
  rw [List.append_nil, List.append_nil] at whole
  simp only [Statement.conditionPieces, List.isEmpty_eq_false_iff.mpr filled,
    List.isEmpty_eq_false_iff.mpr filled', Bool.false_eq_true, if_false]
  exact whole

theorem selectPieces (h : Statement.Regrouped items alone s s') (dialect : String) :
    Piece.Regrouped items alone (s.selectPieces dialect) (s'.selectPieces dialect) := by
  have clauses (s : Statement) : s.selectPieces dialect =
      s.selectHead ++ (Statement.conditionPieces "WHERE" s.predicates ++
        (groupingPieces s.grouping ++ (Statement.conditionPieces "HAVING" s.having ++
          (orderingPieces s.ordering ++
            pagingPieces (Dialect.paging dialect) (!s.ordering.isEmpty) s.limit s.offset)))) := by
    simp only [Statement.selectPieces, coreSelectPieces, selectHead, List.append_assoc]
  rw [clauses, clauses]
  cases h with
  | predicates s having h => exact (conditionPieces given joined h "WHERE").around s.selectHead _
  | having s predicates h =>
      have whole := (conditionPieces given joined h "HAVING").around
        (s.selectHead ++ (Statement.conditionPieces "WHERE" predicates ++
          groupingPieces s.grouping))
        (orderingPieces s.ordering ++
          pagingPieces (Dialect.paging dialect) (!s.ordering.isEmpty) s.limit s.offset)
      simp only [List.append_assoc] at whole
      exact whole

/-- An UPDATE or a DELETE shows its conditions and takes none on groups. -/
theorem of_conditioned (h : Statement.Regrouped items alone s s')
    (ungrouped : s.having = []) (head : Statement → List Piece)
    (kept : ∀ s predicates having, head (s.withConditions predicates having) = head s) :
    Piece.Regrouped items alone (head s ++ Statement.conditionPieces "WHERE" s.predicates)
        (head s' ++ Statement.conditionPieces "WHERE" s'.predicates) ∧
      ∀ operation allowed, s'.guardWrite operation allowed = s.guardWrite operation allowed := by
  cases h with
  | having s _ h => exact absurd ungrouped (h.ne_nil given).1
  | predicates s _ h =>
      obtain ⟨filled, filled'⟩ := h.ne_nil given
      constructor
      · have whole := (conditionPieces given joined h "WHERE").around (head s) []
        rw [List.append_nil, List.append_nil] at whole
        rw [kept, kept]
        exact whole
      · intro operation allowed
        simp only [guardWrite, withConditions, List.isEmpty_eq_false_iff.mpr filled,
          List.isEmpty_eq_false_iff.mpr filled']
        rfl

theorem piecesFor (h : Statement.Regrouped items alone s s') (k : Compiler)
    (operation : Operation) : Agree (Piece.Regrouped items alone) (s.piecesFor k operation)
      (s'.piecesFor k operation) := by
  have checked (allowed : List String) {rest rest' : Unit → Except Error (List Piece)}
      (later : (∀ clause ∈ s.usedClauses, clause ∈ allowed) →
        Agree (Piece.Regrouped items alone) (rest ()) (rest' ())) :
      Agree (Piece.Regrouped items alone) (s.rejectClauses operation allowed >>= rest)
        (s'.rejectClauses operation allowed >>= rest') := by
    have same : s'.rejectClauses operation allowed = s.rejectClauses operation allowed := by
      rw [rejectClauses, h.usedClauses_eq given]
      rfl
    rw [same]
    cases rejected : s.rejectClauses operation allowed with
    | error e => exact Agree.error e
    | ok u => exact later (clauses_allowed rejected)
  cases operation with
  | select => exact Agree.ok (h.selectPieces given joined k.dialect)
  | raw => exact Agree.error _
  | insert =>
      -- conditions are refused here, and there are some
      refine checked [] fun none => ?_
      have bare := bare_of_clauses fun clause used => absurd (none clause used) List.not_mem_nil
      exact absurd ⟨predicates_of_clauses none, bare.having⟩ (h.not_without_conditions given)
  | update =>
      refine checked ["where"] fun allowed => ?_
      obtain ⟨pieces, guarded⟩ := h.of_conditioned given joined (bare_of_clauses allowed).having
        (fun s => .text "UPDATE " :: tablePieces (s.table.getD "") ++ .text " SET " ::
          Piece.separated ", " (s.values.map fun e => [.name e.1, .text " = ", .bound e.2]))
        fun _ _ _ => rfl
      have values : s'.requireValues .update = s.requireValues .update :=
        h.read (requireValues .update) fun _ _ _ => rfl
      rw [values, guarded]
      refine (Agree.same _).bind fun _ _ _ => (Agree.same _).bind fun _ _ _ => Agree.ok ?_
      simpa only [updatePieces, List.append_assoc, List.cons_append] using pieces
  | delete =>
      refine checked ["where"] fun allowed => ?_
      obtain ⟨pieces, guarded⟩ := h.of_conditioned given joined (bare_of_clauses allowed).having
        (fun s => .text "DELETE FROM " :: tablePieces (s.table.getD "")) fun _ _ _ => rfl
      rw [guarded]
      exact (Agree.same _).bind fun _ _ _ => Agree.ok pieces

theorem countPieces (h : Statement.Regrouped items alone s s') (k : Compiler) :
    Piece.Regrouped items alone (k.countPieces s) (k.countPieces s') := by
  have nested : (!s'.grouping.isEmpty || !s'.having.isEmpty || s'.distinct || s'.isPaginated) =
      (!s.grouping.isEmpty || !s.having.isEmpty || s.distinct || s.isPaginated) := by
    cases h with
    | predicates => rfl
    | having s _ h =>
        obtain ⟨filled, filled'⟩ := h.ne_nil given
        simp only [withConditions, List.isEmpty_eq_false_iff.mpr filled,
          List.isEmpty_eq_false_iff.mpr filled', isPaginated]
  rw [Compiler.countPieces, Compiler.countPieces, nested]
  split
  · have inner := h.map (fun s => if s.isPaginated then s else { s with ordering := [] })
      fun s _ _ => by
        cases paged : s.isPaginated with
        | _ => simp only [isPaginated, withConditions] at paged ⊢; simp only [paged]; rfl
    exact (inner.selectPieces given joined k.dialect).around
      [.text ("SELECT COUNT(*) AS " ++ Compiler.countColumn ++ " FROM (")] _
  · exact (h.map (fun s => { s with columns := _, ordering := [] })
      fun _ _ _ => rfl).selectPieces given joined k.dialect

end

end Statement.Regrouped

namespace Compiler

/-- The conditions of a group are written as the text, in whatever state of the collector. -/
def WritesGroup (k : Compiler) (items : List Node) (text : String) : Prop :=
  ∃ reserved c c', k.writeFrom reserved c ((Node.sequence true items).flatMap Token.pieces) =
    .ok (text, c')

/-- The texts are the same if `bare`, and differ in parentheses around a group otherwise. -/
def TextRegrouped (k : Compiler) (items : List Node) (bare : Prop) (sql sql' : String) : Prop :=
  (bare ∧ sql' = sql) ∨
    (¬ bare ∧ ∃ front text back, k.WritesGroup items text ∧ sql = front ++ text ++ back ∧
      sql' = front ++ "(" ++ text ++ ")" ++ back)

variable {k : Compiler} {reserved : List String} {items : List Node} {alone : Prop}

theorem writeFrom_regrouped {ps ps' : List Piece} (h : Piece.Regrouped items alone ps ps')
    (c : Collector) :
    Agree (fun a b => k.TextRegrouped items (items.length = 1 ∨ alone) a.1 b.1 ∧ b.2 = a.2)
      (k.writeFrom reserved c ps) (k.writeFrom reserved c ps') := by
  obtain ⟨bare, rfl⟩ | ⟨wrapped, before, after, rfl, rfl⟩ := h
  · cases k.writeFrom reserved c ps' with
    | error e => exact Agree.error e
    | ok written => exact ⟨.inl ⟨bare, rfl⟩, rfl⟩
  · rw [writeFrom_append, writeFrom_append]
    refine (Agree.same _).bind ?_
    rintro ⟨front, c₁⟩ _ rfl
    simp only [writeFrom_append, writeFrom, writePiece, bind, Except.bind]
    cases written : k.writeFrom reserved c₁ ((Node.sequence true items).flatMap Token.pieces) with
    | error e => exact Agree.error e
    | ok within =>
        simp only
        cases k.writeFrom reserved within.2 after with
        | error e => exact Agree.error e
        | ok back =>
            refine ⟨.inr ⟨wrapped, front, within.1, back.1, ⟨_, _, _, written⟩, ?_, ?_⟩, rfl⟩
            · simp only [String.append_assoc]
            · simp only [String.append_assoc]

theorem write_regrouped {ps ps' : List Piece} (h : Piece.Regrouped items alone ps ps') :
    Agree (fun a b => k.TextRegrouped items (items.length = 1 ∨ alone) a.1 b.1 ∧ b.2 = a.2)
      (k.write reserved ps) (k.write reserved ps') := by
  refine (writeFrom_regrouped h {}).bind ?_
  rintro ⟨sql, c⟩ ⟨sql', _⟩ ⟨text, rfl⟩
  exact Agree.ok ⟨text, rfl⟩

theorem TextRegrouped.congr {bare bare' : Prop} (same : bare ↔ bare') {sql sql' : String}
    (h : k.TextRegrouped items bare sql sql') : k.TextRegrouped items bare' sql sql' := by
  rwa [TextRegrouped, ← same]

end Compiler

/-- Compiled statements that differ in the parentheses of a group at most. -/
structure Compiled.Regrouped (k : Compiler) (items : List Node) (bare : Prop) (c c' : Compiled) :
    Prop where
  sql : k.TextRegrouped items bare c.sql c'.sql
  parameters : c'.parameters = c.parameters
  operation : c'.operation = c.operation
  table : c'.table = c.table

namespace Statement.Regrouped

variable {items : List Node} (given : items ≠ [])
  (joined : ∀ item ∈ items, item.connector = .and) {alone : Prop} {s s' : Statement}

/-- Text that is given raw shows no conditions at all. -/
abbrev Bare (items : List Node) (alone : Prop) (s : Statement) : Prop :=
  s.isRaw = true ∨ items.length = 1 ∨ alone

include given joined

theorem compile (h : Statement.Regrouped items alone s s') (k : Compiler) :
    Agree (Compiled.Regrouped k items (Bare items alone s)) (k.compile s) (k.compile s') := by
  have rawSql := h.read (·.rawSql) fun _ _ _ => rfl
  have rawParams := h.read (·.rawParams) fun _ _ _ => rfl
  have operation := h.read (·.operation) fun _ _ _ => rfl
  have table := h.read (·.table) fun _ _ _ => rfl
  have required := h.read requireTable fun _ _ _ => rfl
  simp only [Compiler.compile, rawSql, operation, table, required, h.reservedNames_eq]
  cases text : s.rawSql with
  | some sql =>
      have isRaw : s.isRaw = true := by rw [isRaw, text]; rfl
      refine Agree.ok ⟨.inl ⟨.inl isRaw, rfl⟩, ?_, rfl, rfl⟩
      simp only [Compiler.compileRaw, rawParams]
  | none =>
      have structured : s.isRaw = false := by rw [isRaw, text]; rfl
      have bare : items.length = 1 ∨ alone ↔ Bare items alone s := by simp [Bare, structured]
      cases s.operation with
      | none => exact Agree.error _
      | some operation =>
          refine (Agree.same _).bind fun _ _ _ => ?_
          refine (h.piecesFor given joined k operation).bind fun ps ps' pieces => ?_
          refine (Compiler.write_regrouped pieces).bind fun a b same => ?_
          exact Agree.ok ⟨same.1.congr bare, same.2, rfl, rfl⟩

theorem compileCount (h : Statement.Regrouped items alone s s') (k : Compiler) :
    Agree (Compiled.Regrouped k items (Bare items alone s)) (k.compileCount s)
      (k.compileCount s') := by
  have isRaw := h.read isRaw fun _ _ _ => rfl
  have operation := h.read (·.operation) fun _ _ _ => rfl
  have table := h.read (·.table) fun _ _ _ => rfl
  have required := h.read requireTable fun _ _ _ => rfl
  simp only [Compiler.compileCount, isRaw, operation, table, required, h.reservedNames_eq]
  split
  · exact Agree.error _
  · next structured =>
      have bare : items.length = 1 ∨ alone ↔ Bare items alone s := by simp [Bare, structured]
      split
      · exact Agree.error _
      · refine (Agree.same _).bind fun _ _ _ => ?_
        have pieces := h.countPieces given joined k
        refine (Compiler.write_regrouped pieces).bind fun a b same => ?_
        exact Agree.ok ⟨same.1.congr bare, same.2, rfl, rfl⟩

end Statement.Regrouped

/-- Orders for compiled statements that differ in the parentheses of a group at most. -/
structure Order.Regrouped (k : Compiler) (items : List Node) (bare : Prop) (a b : Order) :
    Prop where
  compiled : Compiled.Regrouped k items bare a.compiled b.compiled
  request : b.request = a.request
  countsRows : b.countsRows = a.countsRows
  records : b.records = a.records

namespace Terminal

variable (s : Statement) (predicates having : List Node) (operation : Operation)

theorem claim_withConditions : (s.withConditions predicates having).claim operation =
    (s.claim operation).map (·.withConditions predicates having) := by
  have same : (s.withConditions predicates having).operation = s.operation := rfl
  simp only [Statement.claim, same]
  split
  · rfl
  · split
    · rfl
    · rfl

theorem claimOnly_withConditions : claimOnly (s.withConditions predicates having) operation =
    ((claimOnly s operation).1.withConditions predicates having, (claimOnly s operation).2) := by
  simp only [claimOnly, claim_withConditions]
  cases s.claim operation <;> rfl

theorem claimWith_withConditions (values : Value) :
    claimWith (s.withConditions predicates having) operation values =
      ((claimWith s operation values).1.withConditions predicates having,
        (claimWith s operation values).2) := by
  simp only [claimWith, claim_withConditions]
  cases s.claim operation with
  | error e => rfl
  | ok claimed => cases columnValues operation values <;> rfl

theorem prepare_withConditions (t : Terminal) : t.prepare (s.withConditions predicates having) =
    ((t.prepare s).1.withConditions predicates having, (t.prepare s).2) := by
  have same : (s.withConditions predicates having).isRaw = s.isRaw := rfl
  cases raw : s.isRaw with
  | true => cases t <;> simp only [prepare, same, raw, if_true]
  | false =>
      cases t with
      | execute => simp only [prepare, same, raw, Bool.false_eq_true, if_false]
      | insert values | update values =>
          simp only [prepare, same, raw, Bool.false_eq_true, if_false]
          exact claimWith_withConditions s predicates having _ values
      | get | one | count | dataframe | delete =>
          simp only [prepare, same, raw, Bool.false_eq_true, if_false]
          exact claimOnly_withConditions s predicates having _

theorem limited_withConditions (t : Terminal) : t.limited (s.withConditions predicates having) =
    (t.limited s).withConditions predicates having := by
  cases t with
  | one style =>
      change (if s.isRaw || s.limit.isSome then _ else _) = _
      simp only [limited]
      split
      · rfl
      · rfl
  | _ => rfl

theorem isRaw_limited (t : Terminal) : (t.limited (t.prepare s).1).isRaw = s.isRaw := by
  obtain ⟨operation, values, prepared, -⟩ := t.prepare_claims (s := s)
  obtain ⟨limit, limited, -⟩ := t.limited_frame (s := (t.prepare s).1)
  rw [limited, prepared]
  rfl

theorem finish_steps (k : Compiler) (t : Terminal) : (t.finish k s).2 =
    match (t.prepare s).2 with
    | some e => .error e
    | none =>
      t.request (t.prepare s).1.isRaw >>= fun q =>
        t.compile k (t.limited (t.prepare s).1) >>= fun compiled =>
          .ok ⟨q, compiled.1, t.countsRows (t.limited (t.prepare s).1), compiled.2⟩ := by
  simp only [finish]
  obtain ⟨prepared, _ | e⟩ := t.prepare s
  · simp only
    cases t.request prepared.isRaw <;> rfl
  · rfl

end Terminal

namespace Statement.Regrouped

variable {items : List Node} (given : items ≠ [])
  (joined : ∀ item ∈ items, item.connector = .and) {alone : Prop} {s s' : Statement}

include given joined

theorem terminalCompile (h : Statement.Regrouped items alone s s') (k : Compiler) (t : Terminal) :
    Agree (fun a b => Compiled.Regrouped k items (Bare items alone s) a.1 b.1 ∧ b.2 = a.2)
      (t.compile k s) (t.compile k s') := by
  have isRaw := h.read isRaw fun _ _ _ => rfl
  simp only [Terminal.compile, isRaw]
  split
  · exact (h.compile given joined k).bind fun c c' same => Agree.ok ⟨same, rfl⟩
  · split
    · exact (h.compileCount given joined k).bind fun c c' same => Agree.ok ⟨same, rfl⟩
    · refine (h.compile given joined k).bind fun c c' same => Agree.ok ⟨same, ?_⟩
      simp only [Compiled.record, same.operation, same.table]

theorem finish (h : Statement.Regrouped items alone s s') (k : Compiler) (t : Terminal) :
    Agree (Order.Regrouped k items (Bare items alone s)) (t.finish k s).2 (t.finish k s').2 := by
  have prepared := h.map (fun s => (t.prepare s).1) fun s p q => by
    rw [Terminal.prepare_withConditions]
  have fault := h.read (fun s => (t.prepare s).2) fun s p q => by
    rw [Terminal.prepare_withConditions]
  have limited := prepared.map t.limited fun s p q => Terminal.limited_withConditions s p q t
  have isRaw := prepared.read Statement.isRaw fun _ _ _ => rfl
  have counts := limited.read (t.countsRows ·) fun _ _ _ => by cases t <;> rfl
  have compiled := limited.terminalCompile given joined k t
  rw [Bare, t.isRaw_limited s] at compiled
  simp only [Terminal.finish_steps, fault, isRaw, counts]
  split
  · exact Agree.error _
  · refine (Agree.same _).bind fun q _ same => ?_
    cases same
    refine compiled.bind fun a b same => ?_
    exact Agree.ok ⟨same.1, rfl, rfl, same.2⟩

theorem clauseHolds (h : Statement.Regrouped items alone s s') :
    (∀ truth, Node.clauseHolds truth s'.predicates = Node.clauseHolds truth s.predicates) ∧
      ∀ truth, Node.clauseHolds truth s'.having = Node.clauseHolds truth s.having := by
  cases h with
  | predicates s _ h => exact ⟨h.clauseHolds_eq given joined, fun _ => rfl⟩
  | having s _ h => exact ⟨fun _ => rfl, h.clauseHolds_eq given joined⟩

theorem preview {b b' : Builder} (h : Statement.Regrouped items alone b.statement b'.statement)
    (used : b'.consumed = b.consumed) (k : Compiler) :
    Agree (fun x y => Compiled.Regrouped k items (Bare items alone b.statement) x.1 y.1 ∧
      y.2 = x.2) (b.preview k) (b'.preview k) := by
  have previewed := h.map Builder.previewed fun s p q => by
    simp only [Builder.previewed]
    change (if s.isRaw || s.operation.isSome then _ else _) = _
    split <;> rfl
  have isRaw := previewed.read Statement.isRaw fun _ _ _ => rfl
  have compiled := previewed.compile given joined k
  rw [Bare, (Builder.previewed_keeps b.statement).1] at compiled
  simp only [Builder.preview, used]
  split
  · exact Agree.error _
  · refine compiled.bind fun c c' same => Agree.ok ⟨same, ?_⟩
    simp only [isRaw, Compiled.record, same.operation, same.table]

end Statement.Regrouped

/-- Builders whose conditions hold alike and that are previewed and executed alike, with the
parentheses of a group in one of them unless it has one item, or its level to itself, or there is
raw text instead. -/
structure Builder.AsksAlike (items : List Node) (alone : Prop) (b b' : Builder) : Prop where
  predicates : ∀ truth, Node.clauseHolds truth b'.statement.predicates =
    Node.clauseHolds truth b.statement.predicates
  having : ∀ truth, Node.clauseHolds truth b'.statement.having =
    Node.clauseHolds truth b.statement.having
  previews : ∀ k, Agree (fun x y =>
      Compiled.Regrouped k items (Statement.Regrouped.Bare items alone b.statement) x.1 y.1 ∧
        y.2 = x.2) (b.preview k) (b'.preview k)
  orders : ∀ k t, Agree (Order.Regrouped k items (Statement.Regrouped.Bare items alone b.statement))
    (b.finish k t).2 (b'.finish k t).2

theorem Statement.Regrouped.asksAlike {items : List Node} {alone : Prop} {b b' : Builder}
    (h : Statement.Regrouped items alone b.statement b'.statement)
    (used : b'.consumed = b.consumed) (given : items ≠ [])
    (joined : ∀ item ∈ items, item.connector = .and) : b.AsksAlike items alone b' where
  predicates := (h.clauseHolds given joined).1
  having := (h.clauseHolds given joined).2
  previews := h.preview given joined used
  orders k t := by
    simp only [Builder.finish, used]
    split
    · exact Agree.error _
    · exact h.finish given joined k t

end FluentSql
