import FluentSql.Proofs.Named
import FluentSql.Proofs.RawText

/-!
Parameters on their way to a database. A list is handed over item by item, and a map entry by entry
with one leading colon taken from every key. Keys that differ in that colon alone become one key,
under which only one of their values is left; as long as there are none, no parameter is lost. A
fragment's keys have lost a colon already when they are compared, so only those that begin with two
colons can meet another key later.
-/

namespace FluentSql

namespace Entries

variable {α : Type}

theorem length_insert (entries : List (Value × α)) (key : Value) (v : α) :
    (insert entries key v).length =
      if entries.any (·.1.sameKey key) then entries.length else entries.length + 1 := by
  have kept := congrArg List.length (keys_insert entries key v)
  rw [List.length_map, List.any_map, apply_ite List.length, List.length_append, List.length_map]
    at kept
  exact kept

theorem length_insertPairs (entries more : List (Value × α)) :
    (more.foldl (fun entries pair => insert entries pair.1 pair.2) entries).length ≤
      entries.length + more.length := by
  induction more generalizing entries with
  | nil => exact Nat.le_refl _
  | cons pair more ih =>
      have later := ih (insert entries pair.1 pair.2)
      rw [length_insert] at later
      rw [List.foldl_cons, List.length_cons]
      split at later <;> omega

theorem length_ofPairs_le (pairs : List (Value × α)) : (ofPairs pairs).length ≤ pairs.length :=
  (length_insertPairs [] pairs).trans_eq (Nat.zero_add _)

/-- Pairs that add an entry each have keys of their own. -/
theorem apart_of_length {entries more : List (Value × α)}
    (h : (more.foldl (fun entries pair => insert entries pair.1 pair.2) entries).length =
      entries.length + more.length) :
    (∀ e ∈ entries, ∀ e' ∈ more, e.1.sameKey e'.1 = false) ∧
      more.Pairwise fun e e' => e.1.sameKey e'.1 = false := by
  induction more generalizing entries with
  | nil => exact ⟨fun _ _ => List.forall_mem_nil _, .nil⟩
  | cons pair more ih =>
      rw [List.foldl_cons, List.length_cons] at h
      have most := length_insertPairs (insert entries pair.1 pair.2) more
      have inserted := length_insert entries pair.1 pair.2
      split at inserted
      · -- a known key adds no entry, and the rest cannot make up for it
        omega
      · next new =>
          simp only [List.any_eq_true, not_exists, not_and, Bool.not_eq_true] at new
          rw [insert_new new] at h
          have longer : (entries ++ [(pair.1, pair.2)]).length = entries.length + 1 :=
            List.length_append
          obtain ⟨known, others⟩ := ih (by rw [h, longer]; omega)
          obtain ⟨early, last⟩ := List.forall_mem_append.mp known
          have here := last pair (List.mem_singleton_self _)
          exact ⟨fun e he => List.forall_mem_cons.mpr ⟨new e he, early e he⟩,
            List.pairwise_cons.mpr ⟨here, others⟩⟩

/-- No entry is lost exactly when the keys of the pairs are different from one another. -/
theorem length_ofPairs_iff {pairs : List (Value × α)} :
    (ofPairs pairs).length = pairs.length ↔
      pairs.Pairwise fun e e' => e.1.sameKey e'.1 = false := by
  constructor
  · intro h
    have kept : (ofPairs pairs).length = ([] : List (Value × α)).length + pairs.length :=
      h.trans (Nat.zero_add _).symm
    exact (apart_of_length kept).2
  · intro apart
    rw [ofPairs_of_apart apart]

end Entries

/-- No key of a map begins with two colons. -/
def FragmentParams.MarkedOnce : FragmentParams → Prop
  | .list _ => True
  | .map entries => ∀ entry ∈ entries, ¬ [':', ':'] <+: entry.1.toList

instance : (params : FragmentParams) → Decidable params.MarkedOnce
  | .list _ => inferInstanceAs (Decidable True)
  | .map entries => inferInstanceAs (Decidable (∀ entry ∈ entries, ¬ [':', ':'] <+: entry.1.toList))

/-- What a database receives for a compiled statement, and how many of the given parameters: all of
them exactly when the keys of a map stay different, and then each as it was given. -/
structure Compiled.Delivers (c : Compiled) (bound : Value) (given received : Nat) : Prop where
  counted : c.paramCount = .ok given
  handed : bindParameters c.parameters = .ok bound
  arrived : count bound = .ok received
  most : received ≤ given
  lossless : received = given ↔ c.parameters.KeysApart
  unchanged : c.parameters.KeysApart → bound = c.parameters.handedOver

theorem Params.shown_optionToValue (params : Option Params) :
    check (optionToValue params) = .ok params ∧
      (optionToValue params).shown = optionToValue params := by
  obtain _ | ⟨items⟩ | ⟨entries⟩ := params
  all_goals exact ⟨rfl, rfl⟩

namespace Compiled

theorem bindKey_text (key : String) :
    bindKey (.text key) = .text (FragmentParams.boundName key) := by
  by_cases marked : ∃ rest, key.toList = ':' :: rest
  · obtain ⟨rest, marked⟩ := marked
    simp only [bindKey, FragmentParams.boundName, marked]
  · rw [not_exists] at marked
    simp only [bindKey, FragmentParams.boundName]

theorem count_map (entries : List (Value × Value)) :
    count (.map entries) = .ok entries.length := by
  cases entries with
  | nil => rfl
  | cons entry entries => rfl

variable {c : Compiled}

theorem delivers_map {entry : Value × Value} {entries : List (Value × Value)}
    (h : c.parameters = .map (entry :: entries)) :
    ∃ bound given received, c.Delivers bound given received := by
  let pairs := (entry :: entries).map fun e => (bindKey e.1, e.2)
  have same : c.parameters.KeysApart ↔
      pairs.Pairwise fun e e' => e.1.sameKey e'.1 = false := by
    rw [h, List.pairwise_map]
    rfl
  refine ⟨.map (Entries.ofPairs pairs), pairs.length, (Entries.ofPairs pairs).length, ?_, ?_,
    count_map _, Entries.length_ofPairs_le pairs, ?_, fun apart => ?_⟩
  · rw [paramCount, h, count_map, List.length_map]
  · rw [h]
    rfl
  · rw [Entries.length_ofPairs_iff, same]
  · rw [Entries.ofPairs_of_apart (same.mp apart), h]
    rfl

/-- Parameters that are a list, a map or absent are delivered. -/
theorem delivers_shown {v : Value} {params : Option Params} (checked : Params.check v = .ok params)
    (h : c.parameters = v.shown) : ∃ bound given received, c.Delivers bound given received := by
  have absent (counted : count v.shown = .ok 0) (handed : bindParameters v.shown = .ok .none)
      (apart : v.shown.KeysApart) (none : v.shown.handedOver = .none) :
      ∃ bound given received, c.Delivers bound given received := by
    rw [← h] at counted handed apart none
    exact ⟨.none, 0, 0, counted, handed, rfl, Nat.le_refl 0, ⟨fun _ => apart, fun _ => rfl⟩,
      fun _ => none.symm⟩
  cases v with
  | none => exact absent rfl rfl trivial rfl
  | list items | tuple items =>
      cases items with
      | nil => exact absent rfl rfl trivial rfl
      | cons item items =>
          have apart : c.parameters.KeysApart := by
            rw [h]
            trivial
          refine ⟨.tuple (item :: items), _, _, ?_, ?_, rfl, Nat.le_refl _,
            ⟨fun _ => apart, fun _ => rfl⟩, fun _ => ?_⟩
          · rw [paramCount, h]
            rfl
          · rw [h]
            rfl
          · rw [h]
            rfl
  | map entries =>
      cases entries with
      | nil => exact absent rfl rfl .nil rfl
      | cons entry entries => exact delivers_map h
  | _ => cases checked

end Compiled

namespace FragmentParams

/-- A bound name begins with a colon only if its key began with two of them. -/
theorem boundName_boundName {key : String} (once : ¬ [':', ':'] <+: key.toList) :
    boundName (boundName key) = boundName key := by
  have unmarked : ∀ rest, (boundName key).toList ≠ ':' :: rest := by
    intro rest marked
    simp only [boundName] at marked
    split at marked
    · next inner hkey =>
        rw [String.toList_ofList] at marked
        exact once ⟨rest, by rw [hkey, marked]; rfl⟩
    · next other => exact other rest marked
  rw [boundName.eq_def (boundName key)]
  split
  · next rest marked => exact absurd marked (unmarked rest)
  · rfl

theorem boundName_numberedName (n : Nat) :
    boundName (Collector.numberedName n) = Collector.numberedName n := by
  rw [boundName, Collector.toList_numberedName]
  split
  · next marked => exact absurd (List.cons.inj marked).1 (by decide)
  · rfl

theorem MarkedOnce.entries {params : FragmentParams} (once : params.MarkedOnce) :
    ∀ entry ∈ entries (some params), boundName entry.1 = entry.1 := by
  intro entry hentry
  cases params with
  | list items => cases hentry
  | map given =>
      obtain ⟨source, hsource, rfl⟩ := List.mem_map.mp hentry
      exact boundName_boundName (once source hsource)

end FragmentParams

theorem Fields.keysApart_toValue {entries : List (String × Value)} (distinct : (keys entries).Nodup)
    (unmarked : ∀ entry ∈ entries, FragmentParams.boundName entry.1 = entry.1) :
    (toValue entries).KeysApart := by
  have bound {entry : String × Value} (h : entry ∈ entries) :
      Compiled.bindKey (.text entry.1) = .text entry.1 := by
    rw [Compiled.bindKey_text, unmarked entry h]
  refine List.pairwise_map.mpr ((List.pairwise_map.mp distinct).imp_of_mem ?_)
  intro entry later hentry hlater different
  simp only [bound hentry, bound hlater]
  exact beq_false_of_ne different

namespace Compiler

variable {k : Compiler} {s : Statement} {c : Compiled}

theorem exists_shown (h : k.compile s = .ok c ∨ k.compileCount s = .ok c) :
    ∃ v params, Params.check v = .ok params ∧ c.parameters = v.shown := by
  have written {ps : List Piece} (hwrite : k.write s.reservedNames ps = .ok (c.sql, c.parameters)) :
      ∃ v params, Params.check v = .ok params ∧ c.parameters = v.shown := by
    obtain ⟨last, -, hparameters⟩ := write_ok.mp hwrite
    rw [hparameters, Collector.parameters]
    split
    · exact ⟨Fields.toValue last.named, _, rfl, rfl⟩
    · exact ⟨.list last.positional, _, rfl, rfl⟩
  obtain h | h := h
  · cases given : s.isRaw with
    | false =>
        obtain ⟨operation, ps, -, -, hwrite⟩ := compile_pieces_ok given h
        exact written hwrite
    | true =>
        obtain ⟨sql, text⟩ := Option.isSome_iff_exists.mp given
        simp only [compile, text] at h
        cases h
        obtain ⟨checked, shown⟩ := Params.shown_optionToValue s.rawParams
        exact ⟨_, _, checked, shown.symm⟩
  · exact written (compileCount_ok h)

/-- What is written from a layout loses no parameter if no fragment marks a key twice. -/
theorem keysApart_of_write {parts : List Part} (sound : ∀ part ∈ parts, part.IsSound)
    (walked : parts.filterMap Part.params ⊆ s.fragmentParams)
    (once : ∀ params ∈ s.fragmentParams, params.MarkedOnce)
    (h : k.write s.reservedNames (parts.flatMap Part.pieces) = .ok (c.sql, c.parameters)) :
    c.parameters.KeysApart := by
  obtain ⟨last, hlast, hparameters⟩ := write_ok.mp h
  rw [hparameters, Collector.parameters]
  split
  · next named =>
      obtain ⟨marks, run, -⟩ := writeFrom_parts sound hlast
      obtain ⟨written, rfl, -, -, adds⟩ := Collector.run_adds named run
      refine Fields.keysApart_toValue (adds.distinct List.nodup_nil) fun entry hentry => ?_
      rw [adds.named, List.nil_append] at hentry
      obtain ⟨w, hw, hentries⟩ := List.mem_flatMap.mp hentry
      -- a generated name has no colon, a name of a fragment has lost the one it had
      obtain generated | supplied := List.mem_append.mp hentries
      · have name : entry.1 ∈ written.flatMap (·.names) :=
          List.mem_flatMap.mpr ⟨w, hw, (List.of_mem_zip generated).1⟩
        obtain ⟨⟨n, hn⟩, -⟩ := adds.generated entry.1 name
        rw [hn, FragmentParams.boundName_numberedName]
      · cases hpart : w.part with
        | fragment clause sql params =>
            rw [hpart] at supplied
            cases params with
            | none => cases supplied
            | some params =>
                have given : params ∈ (written.map (·.part)).filterMap Part.params :=
                  List.mem_filterMap.mpr ⟨_, List.mem_map_of_mem hw, by rw [hpart]; rfl⟩
                exact (once params (walked given)).entries entry supplied
        | _ =>
            rw [hpart] at supplied
            cases supplied
  · trivial

/-- All parameters of a compiled statement reach the database exactly when the keys of a map stay
different without one leading colon, and then they do so unchanged. The keys of a structured
statement do when none of its fragments has a key that begins with two colons. -/
theorem parameters_arrive_iff (h : k.compile s = .ok c ∨ k.compileCount s = .ok c) :
    (∃ bound given received, c.Delivers bound given received) ∧
      (s.isRaw = false → (∀ params ∈ s.fragmentParams, params.MarkedOnce) →
        c.parameters.KeysApart) := by
  constructor
  · obtain ⟨v, params, checked, shown⟩ := exists_shown h
    exact Compiled.delivers_shown checked shown
  · intro given once
    obtain h | h := h
    · obtain ⟨operation, -, hwrite⟩ := compile_ok given h
      exact keysApart_of_write (Statement.parts_isSound k s operation)
        (Statement.params_parts_subset k s operation) once hwrite
    · exact keysApart_of_write (Statement.countParts_isSound k s)
        (Statement.params_countParts_subset k s) once (compileCount_ok h)

/-- A SELECT with two fragments whose keys differ in their colons and in nothing else. -/
def colonSelect (first second : String) : Statement where
  operation := some .select
  table := some "t"
  predicates := [.raw "x = :a" (some (.map [(first, .int 1)])) .and,
    .leaf "y" .eq (.one (.int 3)) .and, .raw "z = :b" (some (.map [(second, .int 2)])) .and]

theorem parameters_arrive_iff_of_marked :
    ∃ k : Compiler, k.style.isNamed = true ∧ ∃ c, k.compile (colonSelect ":a" "b") = .ok c ∧
      (colonSelect ":a" "b").isRaw = false ∧
      (∀ params ∈ (colonSelect ":a" "b").fragmentParams, params.MarkedOnce) ∧
      c.parameters.KeysApart ∧
      c.Delivers (.map [(.text "a", .int 1), (.text "p1", .int 3), (.text "b", .int 2)]) 3 3 := by
  let k : Compiler := { style := .named }
  have once : ∀ params ∈ (colonSelect ":a" "b").fragmentParams, params.MarkedOnce := by decide
  have parameters : (k.compile (colonSelect ":a" "b")).toOption.map (·.parameters) =
      some (.map [(.text "a", .int 1), (.text "p1", .int 3), (.text "b", .int 2)]) := rfl
  obtain ⟨c, hc, held⟩ := Option.map_eq_some_iff.mp parameters
  have compiled := toOption_some.mp hc
  obtain ⟨⟨bound, given, received, delivers⟩, apart⟩ := parameters_arrive_iff (.inl compiled)
  have different := apart rfl once
  have unchanged := delivers.unchanged different
  have counted := delivers.counted
  rw [Compiled.paramCount, held] at counted
  rw [held] at unchanged
  cases counted
  cases delivers.lossless.mpr different
  cases unchanged
  exact ⟨k, rfl, c, compiled, rfl, once, different, delivers⟩

/-- Of two keys that differ in their colons alone, of fragments or beside raw text, the database
receives one, with the value of the later key. -/
theorem keys_apart_by_colons_collide :
    (∃ k : Compiler, k.style.isNamed = true ∧ ∃ c, k.compile (colonSelect "::a" "a") = .ok c ∧
        c.paramCount = .ok 3 ∧ Compiled.bindParameters c.parameters =
          .ok (.map [(.text "a", .int 2), (.text "p1", .int 3)])) ∧
      ∃ s : Statement, Call.Accepted {}
          (.rawSql (.text "SELECT :a") (.map [(.text ":a", .int 1), (.text "a", .int 2)])) s ∧
        ∀ k : Compiler, ∃ c, k.compile s = .ok c ∧ c.paramCount = .ok 2 ∧
          Compiled.bindParameters c.parameters = .ok (.map [(.text "a", .int 2)]) := by
  let k : Compiler := { style := .named }
  have parameters : (k.compile (colonSelect "::a" "a")).toOption.map (·.parameters) =
      some (.map [(.text ":a", .int 1), (.text "p1", .int 3), (.text "a", .int 2)]) := rfl
  obtain ⟨c, hc, held⟩ := Option.map_eq_some_iff.mp parameters
  refine ⟨⟨k, rfl, c, toOption_some.mp hc, ?_, ?_⟩, ?_⟩
  · rw [Compiled.paramCount, held]
    rfl
  · rw [held]
    rfl
  · have read : Call.rawText (.text "SELECT :a") = .ok "SELECT :a" :=
      toOption_some.mp (by decide +kernel)
    exact ⟨_, .rawSql read rfl, fun k => ⟨_, rfl, rfl, rfl⟩⟩

end Compiler
end FluentSql
