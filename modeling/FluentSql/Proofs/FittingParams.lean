import FluentSql.Proofs.Named

/-!
When pieces can be written. A positional style takes fragments whose parameters are lists, a named
style takes fragments whose parameters are maps with proper names, each name in one fragment only
and once. Values never stand in the way, for the names that are generated for them are none that a
fragment brings. Where pieces cannot be written, the report is that of an invalid argument.
-/

namespace FluentSql

/-- Parameters that a style can take: none at all, a list where places have no names, and a map
where they have, none of whose keys is made of colons alone. -/
def FragmentParams.Fits (style : Style) : FragmentParams → Prop
  | .list items => items = [] ∨ style.isNamed = false
  | .map entries => entries = [] ∨
      style.isNamed = true ∧ ∀ entry ∈ entries, ∃ c ∈ entry.1.toList, c ≠ ':'

/-- The names that parameters are bound under: the keys without one leading colon. -/
def FragmentParams.boundNames (params : FragmentParams) : List String :=
  Fields.keys (entries (some params))

/-- The raw fragments of a SELECT, at any depth, can all be written in a style. -/
def Statement.ParamsFit (style : Style) (s : Statement) : Prop :=
  (∀ params ∈ s.writtenParams, params.Fits style) ∧
    (style.isNamed = true → (s.writtenParams.flatMap FragmentParams.boundNames).Nodup)

namespace Piece

def params : Piece → Option FragmentParams
  | .fragment _ _ params => params
  | _ => none

def isHalt : Piece → Bool
  | .halt _ => true
  | _ => false

end Piece

def Error.code? : Error → Option Code
  | .failure f => some f.code
  | .invalid _ | .raised _ => none

namespace Collector

variable {style : Style} {clause : FragmentClause} {key : String} {c : Collector}

theorem paramName_ok_iff :
    (∃ name, paramName clause key = .ok name) ↔ ∃ ch ∈ key.toList, ch ≠ ':' := by
  simp only [paramName]
  split
  · next rest chars =>
      rw [chars]
      by_cases colons : rest.all (· == ':') = true
      · rw [if_pos colons]
        refine iff_of_false not_ok ?_
        rintro ⟨ch, member, other⟩
        obtain rfl | inside := List.mem_cons.mp member
        · exact other rfl
        · exact other (beq_iff_eq.mp (List.all_eq_true.mp colons ch inside))
      · rw [if_neg colons]
        refine iff_of_true ⟨_, rfl⟩ ?_
        obtain ⟨ch, inside, other⟩ := List.all_eq_false.mp (Bool.eq_false_iff.mpr colons)
        exact ⟨ch, List.mem_cons_of_mem _ inside, fun same => other (beq_iff_eq.mpr same)⟩
  · next chars =>
      rw [chars]
      exact iff_of_false not_ok (by simp)
  · next first chars =>
      refine iff_of_true ⟨key, rfl⟩ ?_
      cases shown : key.toList with
      | nil => exact absurd shown chars
      | cons ch rest => exact ⟨ch, List.mem_cons_self, fun same => first rest (same ▸ shown)⟩

/-- The entries of a fragment can be added when their keys are proper and their names are new. -/
theorem addNamed_ok_iff {entries : List (String × Value)} :
    (∃ c', addNamed clause entries c = .ok c') ↔
      (∀ entry ∈ entries, ∃ ch ∈ entry.1.toList, ch ≠ ':') ∧
        (FragmentParams.boundNames (.map entries)).Nodup ∧
        ∀ name ∈ FragmentParams.boundNames (.map entries), name ∉ Fields.keys c.named := by
  induction entries generalizing c with
  | nil => simp [addNamed, FragmentParams.boundNames, FragmentParams.entries, Fields.keys]
  | cons entry entries ih =>
      obtain ⟨key, v⟩ := entry
      have names : FragmentParams.boundNames (.map ((key, v) :: entries)) =
          FragmentParams.boundName key :: FragmentParams.boundNames (.map entries) := rfl
      have proper : (∃ name, paramName clause key = .ok name) ↔ ∃ ch ∈ key.toList, ch ≠ ':' :=
        paramName_ok_iff
      rw [names, List.forall_mem_cons, List.nodup_cons, List.forall_mem_cons, ← proper]
      cases read : paramName clause key with
      | error e =>
          simp only [addNamed, read]
          exact iff_of_false not_ok fun all => not_ok all.1.1
      | ok name =>
          obtain rfl := paramName_ok read
          simp only [addNamed, read]
          by_cases taken : FragmentParams.boundName key ∈ Fields.keys c.named
          · rw [if_pos (List.contains_iff_mem.mpr taken)]
            exact iff_of_false not_ok fun all => all.2.2.1 taken
          · rw [if_neg fun held => taken (List.contains_iff_mem.mp held), ih]
            have grown : Fields.keys (c.named ++ [(FragmentParams.boundName key, v)]) =
                Fields.keys c.named ++ [FragmentParams.boundName key] := List.map_append
            simp only [grown, List.mem_append, List.mem_singleton, not_or]
            constructor
            · rintro ⟨keys, distinct, fresh⟩
              refine ⟨⟨⟨_, rfl⟩, keys⟩, ⟨?_, distinct⟩, taken, fun name h => (fresh name h).1⟩
              exact fun again => (fresh _ again).2 rfl
            · rintro ⟨⟨-, keys⟩, ⟨single, distinct⟩, -, fresh⟩
              refine ⟨keys, distinct, fun name h => ⟨fresh name h, ?_⟩⟩
              rintro rfl
              exact single h

theorem extend_ok_iff_positional (positional : style.isNamed = false) {params : FragmentParams} :
    (∃ c', c.extend style clause (some params) = .ok c') ↔ params.Fits style := by
  cases params with
  | list items =>
      refine iff_of_true ?_ (.inr positional)
      by_cases empty : (FragmentParams.list items).isEmpty = true
      · exact ⟨c, if_pos empty⟩
      · simp only [extend, positional, if_neg empty]
        exact ⟨_, rfl⟩
  | map entries =>
      cases entries with
      | nil => exact iff_of_true ⟨c, rfl⟩ (.inl rfl)
      | cons entry entries =>
          simp only [extend, positional, FragmentParams.isEmpty, List.isEmpty_cons,
            FragmentParams.Fits]
          refine iff_of_false not_ok ?_
          rintro (none | ⟨named, -⟩)
          · cases none
          · cases named

theorem extend_ok_iff_named (named : style.isNamed = true) {params : FragmentParams} :
    (∃ c', c.extend style clause (some params) = .ok c') ↔
      params.Fits style ∧ params.boundNames.Nodup ∧
        ∀ name ∈ params.boundNames, name ∉ Fields.keys c.named := by
  cases params with
  | list items =>
      cases items with
      | nil => exact iff_of_true ⟨c, rfl⟩ ⟨.inl rfl, List.nodup_nil, List.forall_mem_nil _⟩
      | cons item items =>
          simp only [extend, named, FragmentParams.isEmpty, List.isEmpty_cons]
          refine iff_of_false not_ok ?_
          rintro ⟨none | positional, -⟩
          · cases none
          · rw [named] at positional
            cases positional
  | map entries =>
      cases entries with
      | nil => exact iff_of_true ⟨c, rfl⟩ ⟨.inl rfl, List.nodup_nil, List.forall_mem_nil _⟩
      | cons entry entries =>
          have added : c.extend style clause (some (.map (entry :: entries))) =
              addNamed clause (entry :: entries) c := by
            simp only [extend, named]
            rfl
          rw [added, addNamed_ok_iff]
          refine and_congr_left fun _ => ?_
          constructor
          · exact fun keys => .inr ⟨named, keys⟩
          · rintro (none | ⟨-, keys⟩)
            · cases none
            · exact keys

/-- What a collector can still take in: parameters that fit the style and whose names, where there
are names, are distinct and new to it. -/
def Admits (style : Style) (c : Collector) (fragments : List FragmentParams) : Prop :=
  (∀ params ∈ fragments, params.Fits style) ∧
    (style.isNamed = true → (fragments.flatMap FragmentParams.boundNames).Nodup ∧
      ∀ name ∈ fragments.flatMap FragmentParams.boundNames, name ∉ Fields.keys c.named)

theorem admits_nil : c.Admits style [] :=
  ⟨List.forall_mem_nil _, fun _ => ⟨List.nodup_nil, List.forall_mem_nil _⟩⟩

theorem admits_empty {fragments : List FragmentParams} :
    Admits style {} fragments ↔
      (∀ params ∈ fragments, params.Fits style) ∧
        (style.isNamed = true → (fragments.flatMap FragmentParams.boundNames).Nodup) := by
  refine and_congr_right fun _ => imp_congr_right fun _ => and_iff_left fun name _ => ?_
  exact List.not_mem_nil

/-- Parameters are taken in one fragment after the other. -/
theorem admits_cons_iff {params : FragmentParams} {rest : List FragmentParams} :
    c.Admits style (params :: rest) ↔
      ∃ c', c.extend style clause (some params) = .ok c' ∧ c'.Admits style rest := by
  cases named : style.isNamed with
  | false =>
      have unnamed (d : Collector) (fragments : List FragmentParams) :
          d.Admits style fragments ↔ ∀ params ∈ fragments, params.Fits style := by
        refine and_iff_left fun given => ?_
        rw [named] at given
        cases given
      simp only [unnamed, List.forall_mem_cons, exists_and_right,
        extend_ok_iff_positional named]
  | true =>
      have entered {c' : Collector} (h : c.extend style clause (some params) = .ok c') :
          Fields.keys c'.named = Fields.keys c.named ++ params.boundNames := by
        have adds : Adds [] c [] _ c' := extend_adds named h
        rw [adds.named]
        exact List.map_append
      simp only [Admits, named, forall_const, List.forall_mem_cons, List.flatMap_cons,
        List.nodup_append, List.mem_append, or_imp, forall_and]
      constructor
      · rintro ⟨⟨fits, others⟩, ⟨distinct, later, apart⟩, fresh, unused⟩
        obtain ⟨c', h⟩ := (extend_ok_iff_named named).mpr ⟨fits, distinct, fresh⟩
        refine ⟨c', h, others, later, fun name hname taken => ?_⟩
        rw [entered h] at taken
        obtain old | own := List.mem_append.mp taken
        · exact unused name hname old
        · exact apart name own name hname rfl
      · rintro ⟨c', h, others, later, unused⟩
        obtain ⟨fits, distinct, fresh⟩ := (extend_ok_iff_named named).mp ⟨c', h⟩
        rw [entered h] at unused
        refine ⟨⟨fits, others⟩, ⟨distinct, later, ?_⟩, fresh, fun name hname old => ?_⟩
        · rintro name own _ hname rfl
          exact unused name hname (List.mem_append_right _ own)
        · exact unused name hname (List.mem_append_left _ old)

/-- A value that is bound takes no name away from fragments whose names are reserved. -/
theorem admits_bind_iff {reserved : List String} {v : Value} {fragments : List FragmentParams}
    (claimed : ∀ params ∈ fragments, params.claimedNames ⊆ reserved) :
    (c.bind style reserved v).2.Admits style fragments ↔ c.Admits style fragments := by
  refine and_congr_right fun _ => forall_congr' fun named => and_congr_right fun _ => ?_
  have entered : Fields.keys (c.bind style reserved v).2.named =
      Fields.keys c.named ++ [numberedName (c.nextNumber reserved)] := by
    rw [bind_named named]
    exact List.map_append
  refine forall₂_congr fun name hname => ?_
  have other : name ≠ numberedName (c.nextNumber reserved) := by
    obtain ⟨params, hparams, bound⟩ := List.mem_flatMap.mp hname
    obtain ⟨entry, hentry, rfl⟩ := List.mem_map.mp bound
    refine FragmentParams.numberedName_not_bound (fun taken => ?_) entry hentry
    exact nextNumber_not_reserved reserved c (claimed params hparams taken)
  rw [entered, List.mem_append, List.mem_singleton, or_iff_left other]

theorem addNamed_error {entries : List (String × Value)} {e : Error}
    (h : addNamed clause entries c = .error e) : e.code? = some .invalidArgument := by
  induction entries generalizing c with
  | nil => cases h
  | cons entry entries ih =>
      simp only [addNamed] at h
      split at h
      · next read =>
          cases h
          simp only [paramName] at read
          split at read
          · split at read
            · cases read
              rfl
            · cases read
          · cases read
            rfl
          · cases read
      · split at h
        · cases h
          rfl
        · exact ih h

theorem extend_error {params : Option FragmentParams} {e : Error}
    (h : c.extend style clause params = .error e) : e.code? = some .invalidArgument := by
  cases params with
  | none => cases h
  | some params =>
      simp only [extend] at h
      split at h
      · cases h
      · split at h
        · exact addNamed_error h
        · cases h
          rfl
        · cases h
        · cases h
          rfl

end Collector

namespace Compiler

variable {k : Compiler} {reserved : List String} {c : Collector} {p : Piece} {ps : List Piece}

/-- Pieces can be written when the first one can and, after it, the others. -/
theorem writeFrom_cons_ok_iff :
    (∃ result, k.writeFrom reserved c (p :: ps) = .ok result) ↔
      ∃ head c₁, k.writePiece reserved c p = .ok (head, c₁) ∧
        ∃ result, k.writeFrom reserved c₁ ps = .ok result := by
  constructor
  · rintro ⟨⟨sql, c'⟩, h⟩
    obtain ⟨head, tail, c₁, hp, hps, -⟩ := writeFrom_cons_ok.mp h
    exact ⟨head, c₁, hp, _, hps⟩
  · rintro ⟨head, c₁, hp, ⟨tail, c'⟩, hps⟩
    exact ⟨_, writeFrom_cons_ok.mpr ⟨head, tail, c₁, hp, hps, rfl⟩⟩

theorem writePiece_fragment {clause : FragmentClause} {sql head : String}
    {params : Option FragmentParams} {c₁ : Collector} :
    k.writePiece reserved c (.fragment clause sql params) = .ok (head, c₁) ↔
      head = sql ∧ c.extend k.style clause params = .ok c₁ := by
  constructor
  · intro h
    obtain ⟨_, extended, h⟩ := ok_bind_iff.mp h
    cases h
    exact ⟨rfl, extended⟩
  · rintro ⟨rfl, extended⟩
    exact ok_bind_iff.mpr ⟨_, extended, rfl⟩

theorem writePiece_error (going : p.isHalt = false) {e : Error}
    (h : k.writePiece reserved c p = .error e) : e.code? = some .invalidArgument := by
  cases p with
  | fragment clause sql params =>
      obtain extended | ⟨_, -, h⟩ := error_bind_iff.mp h
      · exact Collector.extend_error extended
      · cases h
  | halt e => cases going
  | text | name | bound => cases h

theorem writeFrom_error (going : ∀ p ∈ ps, p.isHalt = false) {e : Error}
    (h : k.writeFrom reserved c ps = .error e) : e.code? = some .invalidArgument := by
  induction ps generalizing c with
  | nil => cases h
  | cons p ps ih =>
      obtain ⟨first, others⟩ := List.forall_mem_cons.mp going
      obtain refused | ⟨_, -, h⟩ := error_bind_iff.mp h
      · exact writePiece_error first refused
      · obtain refused | ⟨_, -, h⟩ := error_bind_iff.mp h
        · exact ih others refused
        · cases h

/-- Pieces can be written when the parameters of their fragments can be taken in: the values that
are bound between them make no difference. -/
theorem writeFrom_ok_iff (going : ∀ p ∈ ps, p.isHalt = false)
    (claimed : ∀ params ∈ ps.filterMap Piece.params, params.claimedNames ⊆ reserved) :
    (∃ result, k.writeFrom reserved c ps = .ok result) ↔
      c.Admits k.style (ps.filterMap Piece.params) := by
  induction ps generalizing c with
  | nil => exact iff_of_true ⟨_, rfl⟩ Collector.admits_nil
  | cons p ps ih =>
      obtain ⟨first, others⟩ := List.forall_mem_cons.mp going
      have passes {head : String} {c₁ : Collector} (none : p.params = none)
          (written : k.writePiece reserved c p = .ok (head, c₁))
          (same : c₁.Admits k.style (ps.filterMap Piece.params) ↔
            c.Admits k.style (ps.filterMap Piece.params)) :
          (∃ result, k.writeFrom reserved c (p :: ps) = .ok result) ↔
            c.Admits k.style ((p :: ps).filterMap Piece.params) := by
        rw [List.filterMap_cons_none none] at claimed ⊢
        rw [writeFrom_cons_ok_iff, ← same, ← ih others claimed]
        constructor
        · rintro ⟨_, _, again, rest⟩
          cases written.symm.trans again
          exact rest
        · exact fun rest => ⟨head, c₁, written, rest⟩
      cases p with
      | text | name => exact passes rfl rfl Iff.rfl
      | bound v => exact passes rfl rfl (Collector.admits_bind_iff claimed)
      | halt => cases first
      | fragment clause sql params =>
          cases params with
          | none => exact passes rfl rfl Iff.rfl
          | some params =>
              have fragments : (Piece.fragment clause sql (some params) :: ps).filterMap
                  Piece.params = params :: ps.filterMap Piece.params := rfl
              rw [fragments, List.forall_mem_cons] at claimed
              rw [fragments, Collector.admits_cons_iff, writeFrom_cons_ok_iff]
              constructor
              · rintro ⟨_, c₁, written, rest⟩
                exact ⟨c₁, (writePiece_fragment.mp written).2, (ih others claimed.2).mp rest⟩
              · rintro ⟨c₁, extended, rest⟩
                exact ⟨sql, c₁, writePiece_fragment.mpr ⟨rfl, extended⟩,
                  (ih others claimed.2).mpr rest⟩

/-- A text is written from the pieces of a statement when the parameters of its fragments fit. -/
theorem write_ok_iff (going : ∀ p ∈ ps, p.isHalt = false)
    (claimed : ∀ params ∈ ps.filterMap Piece.params, params.claimedNames ⊆ reserved) :
    (∃ result, k.write reserved ps = .ok result) ↔
      Collector.Admits k.style {} (ps.filterMap Piece.params) := by
  rw [← writeFrom_ok_iff going claimed]
  constructor
  · rintro ⟨⟨sql, parameters⟩, h⟩
    obtain ⟨last, written, -⟩ := write_ok.mp h
    exact ⟨_, written⟩
  · rintro ⟨⟨sql, last⟩, written⟩
    exact ⟨_, write_ok.mpr ⟨last, written, rfl⟩⟩

theorem write_error (going : ∀ p ∈ ps, p.isHalt = false) {e : Error}
    (h : k.write reserved ps = .error e) : e.code? = some .invalidArgument := by
  obtain refused | ⟨_, -, h⟩ := error_bind_iff.mp h
  · exact writeFrom_error going refused
  · cases h

end Compiler

namespace Part

theorem params_pieces {part : Part} (sound : part.IsSound) :
    part.pieces.filterMap Piece.params = part.params.toList := by
  cases part with
  | plain pieces =>
      refine List.filterMap_eq_nil_iff.mpr fun p hp => ?_
      have plain := List.all_eq_true.mp sound p hp
      cases p with
      | text | name | halt => rfl
      | bound | fragment => cases plain
  | leaf field operator operand =>
      have none : ∀ p ∈ Atom.leafPieces field operator operand, p.params = .none :=
        Atom.forall_leafPieces (fun _ => rfl) (fun _ => rfl) (fun _ => rfl) field operator operand
      exact List.filterMap_eq_nil_iff.mpr none
  | assignment | inserted => rfl
  | fragment clause sql params => cases params <;> rfl

theorem params_flatMap_pieces {parts : List Part} (sound : ∀ part ∈ parts, part.IsSound) :
    (parts.flatMap pieces).filterMap Piece.params = parts.filterMap Part.params := by
  induction parts with
  | nil => rfl
  | cons part parts ih =>
      obtain ⟨first, others⟩ := List.forall_mem_cons.mp sound
      rw [List.flatMap_cons, List.filterMap_append, params_pieces first, ih others]
      cases h : part.params with
      | none => rw [List.filterMap_cons_none h]; rfl
      | some params => rw [List.filterMap_cons_some h]; rfl

end Part
end FluentSql
