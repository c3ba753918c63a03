import FluentSql.Proofs.BuiltStatements
import FluentSql.Proofs.CanonicalReferences
import FluentSql.Proofs.CompiledNames
import FluentSql.Proofs.FittingParams
import FluentSql.Proofs.PreviewedRuns

/-!
Which statements compile. Whatever calls led to a statement, its references can be read, its
conditions hold no foreign node, and its numbers were checked, so none of its pieces refuses to be
written. A builder that is raw compiles, and any other one compiles when it has a table and its
fragments fit the style; otherwise the report says which of the two is missing.
-/

namespace FluentSql

/-- None of the pieces refuses to be written. -/
def Piece.Proceeds (ps : List Piece) : Prop := ∀ p ∈ ps, p.isHalt = false

open Piece (Proceeds)

namespace Piece.Proceeds

variable {p : Piece} {ps qs : List Piece}

theorem nil : Proceeds [] := List.forall_mem_nil _

theorem cons (hp : p.isHalt = false) (hps : Proceeds ps) : Proceeds (p :: ps) :=
  List.forall_mem_cons.mpr ⟨hp, hps⟩

theorem append (hps : Proceeds ps) (hqs : Proceeds qs) : Proceeds (ps ++ qs) :=
  List.forall_mem_append.mpr ⟨hps, hqs⟩

theorem flatMap {α : Type} {f : α → List Piece} {xs : List α} (h : ∀ x ∈ xs, Proceeds (f x)) :
    Proceeds (xs.flatMap f) := by
  intro p hp
  obtain ⟨x, hx, hp⟩ := List.mem_flatMap.mp hp
  exact h x hx p hp

theorem list {α : Type} {f : α → List Piece} {xs : List α} (h : ∀ x ∈ xs, Proceeds (f x)) :
    Proceeds (Piece.separated ", " (xs.map f)) := by
  refine Piece.forall_separated (P := fun p => p.isHalt = false) rfl fun ps hps => ?_
  obtain ⟨x, hx, rfl⟩ := List.mem_map.mp hps
  exact h x hx

theorem of_fixed (fixed : ps.all isFixed = true) : Proceeds ps := by
  intro p hp
  have held := List.all_eq_true.mp fixed p hp
  cases p with
  | halt => cases held
  | _ => rfl

end Piece.Proceeds

namespace Statement

variable {s : Statement}

theorem proceeds_table {reference : String} (h : TableReference.IsCanonical reference) :
    Proceeds (tablePieces reference) := by
  obtain ⟨-, ⟨name, short⟩, read⟩ := h
  rw [tablePieces, read]
  cases short with
  | none => exact .cons rfl .nil
  | some short => exact .cons rfl (.cons rfl (.cons rfl .nil))

theorem proceeds_projection (columns : List String) : Proceeds (projectionPieces columns) := by
  simp only [projectionPieces]
  split
  · exact .cons rfl .nil
  · refine .list fun column _ => ?_
    simp only [columnPieces]
    split
    · exact .cons rfl .nil
    · exact .cons rfl .nil

theorem proceeds_join {j : Join} (h : TableReference.IsCanonical j.table) :
    Proceeds (joinPieces j) := by
  refine .append (.cons rfl (proceeds_table h)) (.cons rfl ?_)
  cases j.condition with
  | text condition => exact .cons rfl .nil
  | columns left operator right => exact .cons rfl (.cons rfl (.cons rfl .nil))

/-- Conditions that were asked for hold no value that is not a condition. -/
theorem proceeds_conditions {raws : Prop} {keyword : String} {nodes : List Node}
    (asked : ∀ node ∈ nodes, node.Asked raws) : Proceeds (conditionPieces keyword nodes) := by
  simp only [conditionPieces]
  split
  · exact .nil
  · refine .cons rfl (.flatMap fun t ht => ?_)
    have vetted := Node.clauseTokens_vetted asked t ht
    cases t with
    | atom a =>
        cases a with
        | leaf field operator operand =>
            exact Atom.forall_leafPieces (fun _ => rfl) (fun _ => rfl) (fun _ => rfl) field operator
              operand
        | fragment => exact .cons rfl .nil
        | stray => exact vetted.elim
    | connector | opening | closing => exact .cons rfl .nil

theorem proceeds_grouping (grouping : List Entry) : Proceeds (groupingPieces grouping) := by
  simp only [groupingPieces]
  split
  · exact .nil
  · refine .cons rfl (.list fun e _ => ?_)
    simp only [groupEntryPieces]
    split
    · exact .cons rfl .nil
    · exact .cons rfl .nil

theorem proceeds_ordering (ordering : List OrderEntry) : Proceeds (orderingPieces ordering) := by
  simp only [orderingPieces]
  split
  · exact .nil
  · refine .cons rfl (.list fun e _ => ?_)
    simp only [orderEntryPieces]
    split
    · exact .cons rfl .nil
    · exact .cons rfl (.cons rfl .nil)

/-- All references of the statement are in their canonical form. -/
structure Referring (s : Statement) : Prop where
  table : ∀ reference ∈ s.table, TableReference.IsCanonical reference
  joins : ∀ j ∈ s.joins, TableReference.IsCanonical j.table

/-- Limit and offset have no more digits than can be written. -/
def Paged (s : Statement) : Prop :=
  (∀ n ∈ s.limit, Text.writable n = true) ∧ ∀ n ∈ s.offset, Text.writable n = true

/-- What a statement needs to be compiled without a terminal call. -/
def Compiles (style : Style) (s : Statement) : Prop :=
  s.isRaw = true ∨ s.table.isSome = true ∧ s.ParamsFit style

theorem proceeds_select {raws : Prop} (vetted : s.Vetted raws) (referring : s.Referring)
    (paged : s.Paged) {reference : String} (table : s.table = some reference) (dialect : String) :
    Proceeds (s.selectPieces dialect) := by
  have source : Proceeds (.text " FROM " :: tablePieces (s.table.getD "")) := by
    rw [table]
    exact .cons rfl (proceeds_table (referring.table reference table))
  have joins : Proceeds (s.joins.flatMap joinPieces) :=
    .flatMap fun j hj => proceeds_join (referring.joins j hj)
  have core : Proceeds s.coreSelectPieces :=
    ((((Proceeds.cons rfl (proceeds_projection s.columns)).append source).append joins).append
      (proceeds_conditions vetted.predicates) |>.append (proceeds_grouping s.grouping)).append
        (proceeds_conditions vetted.having)
  exact (core.append (proceeds_ordering s.ordering)).append
    (.of_fixed (pagingPieces_isFixed paged.1 paged.2 _ _))

theorem isCanonical_joinOf {kind : JoinKind} {target first operator second : Value} {j : Join}
    (h : Call.joinOf kind target first operator second = .ok j) :
    TableReference.IsCanonical j.table :=
  TableReference.check_isCanonical (Call.joinOf_table h)

namespace Referring

theorem new : Referring {} := ⟨nofun, List.forall_mem_nil _⟩

theorem accepted {s' : Statement} (h : s.Referring) {c : Call} (change : c.Accepted s s') :
    s'.Referring := by
  cases change with
  | table read =>
      refine { h with table := fun reference held => ?_ }
      cases held
      exact TableReference.check_isCanonical read
  | join read => exact { h with joins := forall_mem_concat h.joins (isCanonical_joinOf read) }
  | _ => exact { h with }

theorem residue (h : s.Referring) (c : Call) : (c.residue s).Referring := by
  cases c with
  | rawSql sql params =>
      rw [Call.residue]
      split
      · exact { h with }
      · exact h
  | select columns => exact { h with }
  | groupBy columns => exact { h with }
  | _ => exact h

theorem apply (h : s.Referring) (c : Call) : (c.apply s).1.Referring := by
  obtain change | left := c.apply_cases s
  · exact h.accepted change
  · rw [left]
    exact h.residue c

end Referring

theorem Built.referring {allowed : Call → Prop} (built : s.Built allowed) : s.Referring := by
  induction built with
  | new => exact .new
  | @call s _ c _ ih => exact ih.apply c
  | @finish s _ k t ih =>
      obtain ⟨_, _, _, left, -⟩ := t.finish_frame k s
      rw [left]
      exact { ih with }
  | preview _ ih =>
      rw [Builder.previewed]
      split
      · exact ih
      · exact { ih with }

end Statement

namespace Compiler

variable {k : Compiler} {s : Statement}

theorem requireTable_ok (referring : s.Referring) :
    s.requireTable = .ok () ↔ s.table.isSome = true := by
  cases table : s.table with
  | none =>
      rw [Statement.requireTable, table]
      exact iff_of_false nofun nofun
  | some reference =>
      have given : reference.isEmpty = false := by
        rw [Bool.eq_false_iff]
        exact fun none => (referring.table reference table).1 (String.isEmpty_iff.mp none)
      rw [Statement.requireTable, table]
      exact iff_of_true (if_neg (Bool.eq_false_iff.mp given)) rfl

variable (built : s.Built fun _ => True) (paged : s.Paged)
include built paged

/-- The pieces of a statement with a table can be written when its fragments fit the style, and
otherwise an argument was invalid. -/
theorem write_select_ok_iff (table : s.table.isSome = true) :
    ((∃ result, k.write s.reservedNames (s.selectPieces k.dialect) = .ok result) ↔
        s.ParamsFit k.style) ∧
      ∀ e, k.write s.reservedNames (s.selectPieces k.dialect) = .error e →
        e.code? = some .invalidArgument := by
  obtain ⟨reference, table⟩ := Option.isSome_iff_exists.mp table
  have going := Statement.proceeds_select (built.vetted fun _ _ _ => trivial) built.referring paged
    table k.dialect
  have fragments : (s.selectPieces k.dialect).filterMap Piece.params = s.writtenParams := by
    rw [← Statement.pieces_selectParts,
      Part.params_flatMap_pieces (Statement.selectParts_isSound k.dialect s),
      Statement.params_selectParts]
  have claimed : ∀ params ∈ s.writtenParams, params.claimedNames ⊆ s.reservedNames :=
    fun params hparams name hname =>
      List.mem_flatMap.mpr ⟨params, s.writtenParams_subset hparams, hname⟩
  refine ⟨?_, fun e h => write_error going h⟩
  rw [write_ok_iff going (by rwa [fragments]), fragments]
  exact Collector.admits_empty

/-- A statement that calls led to compiles as a SELECT when it has a table and its fragments fit
the style. -/
theorem select_ok_iff (given : s.isRaw = false) :
    (∃ c, k.compile { s with operation := some .select } = .ok c) ↔
      s.table.isSome = true ∧ s.ParamsFit k.style := by
  constructor
  · rintro ⟨c, h⟩
    obtain ⟨required, written, -⟩ := (compile_select_ok given).mp h
    have table := (requireTable_ok built.referring).mp required
    exact ⟨table, (write_select_ok_iff built paged table).1.mp ⟨_, written⟩⟩
  · rintro ⟨table, fit⟩
    obtain ⟨⟨sql, parameters⟩, written⟩ := (write_select_ok_iff built paged table).1.mpr fit
    exact ⟨⟨sql, parameters, some Operation.select.text, s.table⟩, (compile_select_ok given).mpr
      ⟨(requireTable_ok built.referring).mpr table, written, rfl, rfl⟩⟩

theorem select_error (given : s.isRaw = false) {e : Error}
    (h : k.compile { s with operation := some .select } = .error e) :
    e.code? = some (if s.table.isSome then .invalidArgument else .missingTable) := by
  have text : s.rawSql = none := by simpa [Statement.isRaw] using given
  simp only [compile, text] at h
  cases table : s.table.isSome with
  | false =>
      have missing : s.table = none := Option.isNone_iff_eq_none.mp (by simpa using table)
      obtain absent | ⟨_, required, -⟩ := error_bind_iff.mp h
      · simp only [Statement.requireTable, missing] at absent
        cases absent
        rfl
      · simp only [Statement.requireTable, missing] at required
        cases required
  | true =>
      have required := (requireTable_ok built.referring).mpr table
      obtain absent | ⟨_, -, h⟩ := error_bind_iff.mp h
      · cases required.symm.trans absent
      · obtain refused | ⟨_, pieces, h⟩ := error_bind_iff.mp h
        · cases refused
        · cases pieces
          obtain refused | ⟨_, -, h⟩ := error_bind_iff.mp h
          · exact (write_select_ok_iff built paged table).2 e refused
          · cases h

end Compiler

namespace Session

variable {name : String} {now : Session}

theorem IsReached.built (reached : IsReached name now) :
    (now.builderOrNew name).statement.Built fun _ => True := by
  obtain ⟨s, steps, new, rfl⟩ := reached
  exact s.built_run name new steps fun _ _ _ _ _ => trivial

/-- A preview of an open builder compiles when its statement is raw, or has a table and brings
parameters that fit the style. Otherwise the failure says that the table is missing or, where there
is one, that an argument was invalid. -/
theorem preview_compiles_iff (reached : IsReached name now)
    (opened : (now.builderOrNew name).consumed = false)
    (paged : (now.builderOrNew name).statement.Paged) :
    ((∃ c, (now.step name .compile).2.outcome = .ok (.compiled c)) ↔
        (now.builderOrNew name).statement.Compiles now.compiler.style) ∧
      (¬ (now.builderOrNew name).statement.Compiles now.compiler.style →
        ∃ e, (now.step name .compile).2.outcome = .error e ∧
          e.code? = some (if (now.builderOrNew name).statement.table.isSome then .invalidArgument
            else .missingTable)) := by
  have built := reached.built
  have free := reached.openReads opened
  have ok {c : Compiled} := step_compile_ok (c := c) opened
  have error {e : Error} := step_compile_error (e := e) opened
  generalize (now.builderOrNew name).statement = s at paged built free ok error ⊢
  cases raw : s.isRaw with
  | true =>
      obtain ⟨sql, text⟩ := Option.isSome_iff_exists.mp raw
      have compiled : now.compiler.compile (Builder.previewed s) =
          .ok (Compiler.compileRaw s sql) := by
        rw [Builder.previewed_raw raw]
        simp only [Compiler.compile, text]
      exact ⟨iff_of_true ⟨_, ok.mpr compiled⟩ (.inl raw), fun none => absurd (.inl raw) none⟩
  | false =>
      rw [Builder.previewed_free raw free] at ok error
      have fit : (∃ c, now.compiler.compile { s with operation := some .select } = .ok c) ↔
          s.Compiles now.compiler.style := by
        rw [Compiler.select_ok_iff built paged raw, Statement.Compiles, or_iff_right]
        rw [raw]
        exact Bool.false_ne_true
      constructor
      · rw [← fit]
        exact exists_congr fun c => ok
      · intro none
        cases compiled : now.compiler.compile { s with operation := some .select } with
        | ok c => exact absurd (fit.mp ⟨c, compiled⟩) none
        | error e =>
            exact ⟨e, error.mpr compiled, Compiler.select_error built paged raw compiled⟩

/-- A session with two builders whose fragments stand at different depths. Their names are told
apart under the first name, and one of them comes twice under the second. -/
def fragmentSession : Session :=
  let new : Session := { compiler := { style := .named } }
  let fragment (sql key : String) : String × List Value :=
    ("where_raw", [.text sql, .map [(.text key, .int 1)]])
  let nested (key : String) : Call := .condition "where" [.callback [fragment "a = :x" key]]
  (new.run [("q", .chain (.table (.text "users"))), ("q", .chain (nested ":x")),
    ("q", .chain (.groupByRaw (.text "b % :y") (.map [(.text "y", .int 2)]))),
    ("q", .chain (.limit (.int 5))), ("r", .chain (.table (.text "users"))),
    ("r", .chain (nested ":x")), ("r", .chain (.groupByRaw (.text "b % :x")
      (.map [(.text "x", .int 2)])))]).1

theorem preview_compiles_iff_of_fragments :
    IsReached "q" fragmentSession ∧ IsReached "r" fragmentSession ∧
      (fragmentSession.builderOrNew "q").consumed = false ∧
      (fragmentSession.builderOrNew "r").consumed = false ∧
      (fragmentSession.builderOrNew "q").statement.Paged ∧
      (fragmentSession.builderOrNew "r").statement.Paged ∧
      (∃ c, (fragmentSession.step "q" .compile).2.outcome = .ok (.compiled c)) ∧
      ∃ e, (fragmentSession.step "r" .compile).2.outcome = .error e ∧
        e.code? = some .invalidArgument := by
  have reached : IsReached "q" fragmentSession ∧ IsReached "r" fragmentSession :=
    ⟨⟨_, _, rfl, rfl⟩, ⟨_, _, rfl, rfl⟩⟩
  have opened : (fragmentSession.builderOrNew "q").consumed = false ∧
      (fragmentSession.builderOrNew "r").consumed = false := by decide +kernel
  have pagedQ : (fragmentSession.builderOrNew "q").statement.Paged := by
    have limit : (fragmentSession.builderOrNew "q").statement.limit = some 5 := by decide +kernel
    have offset : (fragmentSession.builderOrNew "q").statement.offset = none := by decide +kernel
    rw [Statement.Paged, limit, offset]
    refine ⟨?_, nofun⟩
    rintro n ⟨⟩
    decide +kernel
  have pagedR : (fragmentSession.builderOrNew "r").statement.Paged := by
    have limit : (fragmentSession.builderOrNew "r").statement.limit = none := by decide +kernel
    have offset : (fragmentSession.builderOrNew "r").statement.offset = none := by decide +kernel
    rw [Statement.Paged, limit, offset]
    exact ⟨nofun, nofun⟩
  have fits : (fragmentSession.builderOrNew "q").statement.Compiles .named := by
    have written : (fragmentSession.builderOrNew "q").statement.writtenParams =
        [.map [(":x", .int 1)], .map [("y", .int 2)]] := rfl
    have fit {key : String} {v : Value} (proper : ∃ c ∈ key.toList, c ≠ ':') :
        (FragmentParams.map [(key, v)]).Fits .named :=
      .inr ⟨rfl, List.forall_mem_singleton.mpr proper⟩
    refine .inr ⟨by decide +kernel, ?_⟩
    rw [Statement.ParamsFit, written, List.forall_mem_cons, List.forall_mem_singleton]
    refine ⟨⟨fit ⟨'x', ?_, ?_⟩, fit ⟨'y', ?_, ?_⟩⟩, fun _ => ?_⟩
    all_goals decide +kernel
  have repeats : ¬ (fragmentSession.builderOrNew "r").statement.Compiles .named := by
    have written : (fragmentSession.builderOrNew "r").statement.writtenParams =
        [.map [(":x", .int 1)], .map [("x", .int 2)]] := rfl
    rintro (raw | ⟨-, -, distinct⟩)
    · revert raw
      decide +kernel
    · rw [written] at distinct
      exact absurd (distinct rfl) (by decide +kernel)
  have q := preview_compiles_iff reached.1 opened.1 pagedQ
  have r := preview_compiles_iff reached.2 opened.2 pagedR
  exact ⟨reached.1, reached.2, opened.1, opened.2, pagedQ, pagedR, q.1.mpr fits, r.2 repeats⟩

end Session
end FluentSql
