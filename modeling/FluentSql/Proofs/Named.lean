import FluentSql.Proofs.FragmentWalk
import FluentSql.Proofs.FreshName
import FluentSql.Proofs.NamedFields
import FluentSql.Proofs.Writing

/-!
Named parameters. A run in a named style adds to the collector, part by part, the generated names of
the part with the values they stand for, or the parameters of a fragment without one leading colon.
Every name is new to the collector when it is added, so a name is never given twice; and since a
generated name has no colons, it is also none of the names that fragments claim, though these are
reserved without all their leading colons.
-/

namespace FluentSql

/-- A key without one leading colon. -/
def FragmentParams.boundName (key : String) : String :=
  match key.toList with
  | ':' :: rest => String.ofList rest
  | _ => key

/-- The parameters that a fragment brings along in a named style. -/
def FragmentParams.entries : Option FragmentParams → List (String × Value)
  | some (.map entries) => entries.map fun (key, v) => (boundName key, v)
  | _ => []

/-- The named parameters of a fragment; other parts have none of their own. -/
def Part.supplied : Part → List (String × Value)
  | .fragment _ _ params => FragmentParams.entries params
  | _ => []

/-- A part with the names that were generated for its places. -/
structure NamedPart where
  part : Part
  names : List String

namespace NamedPart

def text (k : Compiler) (w : NamedPart) : String :=
  w.part.text k (w.names.map k.style.placeholder)

/-- The parameters that a part adds: generated names with the values they stand for, and what a
fragment supplies. -/
def entries (w : NamedPart) : List (String × Value) := w.names.zip w.part.places ++ w.part.supplied

end NamedPart

namespace Collector

variable {style : Style} (named : style.isNamed = true) {reserved : List String}

section

include named

theorem bind_named (c : Collector) (v : Value) :
    c.bind style reserved v =
      (style.placeholder (numberedName (c.nextNumber reserved)),
        { c with
          counter := c.nextNumber reserved
          named := c.named ++ [(numberedName (c.nextNumber reserved), v)] }) := by
  cases style with
  | named | pyformat => rfl
  | qmark | format => cases named

end

/-- What a step in a named style adds: names that are generated and not reserved, each of them new
to the collector. -/
structure Adds (reserved : List String) (c : Collector) (names : List String)
    (entries : List (String × Value)) (c' : Collector) : Prop where
  named : c'.named = c.named ++ entries
  generated : ∀ name ∈ names, (∃ n, name = numberedName n) ∧ name ∉ reserved
  distinct : (Fields.keys c.named).Nodup → (Fields.keys c'.named).Nodup

theorem Adds.nil (c : Collector) : Adds reserved c [] [] c :=
  ⟨(List.append_nil _).symm, by simp, id⟩

theorem Adds.trans {c c₁ c₂ : Collector} {names names' : List String}
    {entries entries' : List (String × Value)} (h : Adds reserved c names entries c₁)
    (h' : Adds reserved c₁ names' entries' c₂) :
    Adds reserved c (names ++ names') (entries ++ entries') c₂ := by
  constructor
  · rw [h'.named, h.named, List.append_assoc]
  · intro name hname
    exact (List.mem_append.mp hname).elim (h.generated name) (h'.generated name)
  · exact fun distinct => h'.distinct (h.distinct distinct)

/-- An entry whose name is new keeps the names distinct. -/
theorem keys_nodup_concat {fields : List (String × Value)} {name : String} {v : Value}
    (fresh : name ∉ Fields.keys fields) (distinct : (Fields.keys fields).Nodup) :
    (Fields.keys (fields ++ [(name, v)])).Nodup := by
  simp only [Fields.keys, List.map_append, List.map_cons, List.map_nil]
  refine List.nodup_append.mpr ⟨distinct, List.nodup_singleton _, fun a ha b hb same => ?_⟩
  rw [List.mem_singleton.mp hb] at same
  exact fresh (same ▸ ha)

section

include named

theorem bindAll_named (c : Collector) (vs : List Value) :
    ∃ names c', c.bindAll style reserved vs = (names.map style.placeholder, c') ∧
      names.length = vs.length ∧ Adds reserved c names (names.zip vs) c' := by
  induction vs generalizing c with
  | nil => exact ⟨[], c, rfl, rfl, .nil c⟩
  | cons v vs ih =>
      let n := c.nextNumber reserved
      let c₁ : Collector := { c with counter := n, named := c.named ++ [(numberedName n, v)] }
      obtain ⟨names, c', hbind, hlength, adds⟩ := ih c₁
      have first : Adds reserved c [numberedName n] [(numberedName n, v)] c₁ := by
        refine ⟨rfl, ?_, fun distinct => ?_⟩
        · intro name hname
          rw [List.mem_singleton.mp hname]
          exact ⟨⟨n, rfl⟩, nextNumber_not_reserved reserved c⟩
        · exact keys_nodup_concat (nextNumber_not_collected reserved c) distinct
      refine ⟨numberedName n :: names, c', ?_, by rw [List.length_cons, hlength]; rfl, ?_⟩
      · simp only [bindAll, bind_named named, List.map_cons]
        rw [hbind]
      · exact first.trans adds

end

theorem paramName_ok {clause : FragmentClause} {key name : String}
    (h : paramName clause key = .ok name) : name = FragmentParams.boundName key := by
  simp only [paramName, FragmentParams.boundName] at h ⊢
  split at h
  · split at h
    · cases h
    · cases h
      next hkey _ => simp only [hkey]
  · cases h
  · cases h
    split
    · simp_all
    · rfl

theorem addNamed_adds {clause : FragmentClause} {entries : List (String × Value)}
    {c c' : Collector} (h : addNamed clause entries c = .ok c') :
    Adds reserved c [] (entries.map fun (key, v) => (FragmentParams.boundName key, v)) c' := by
  induction entries generalizing c with
  | nil => cases h; exact .nil _
  | cons entry entries ih =>
      simp only [addNamed] at h
      split at h
      · cases h
      · next name hname =>
          split at h
          · cases h
          · next fresh =>
              have first : Adds reserved c [] [(name, entry.2)]
                  { c with named := c.named ++ [(name, entry.2)] } := by
                refine ⟨rfl, by simp, keys_nodup_concat ?_⟩
                simpa using fresh
              rw [paramName_ok hname] at first h
              exact first.trans (ih h)

theorem extend_adds {clause : FragmentClause} {c c' : Collector}
    {params : Option FragmentParams} (named : style.isNamed = true)
    (h : c.extend style clause params = .ok c') :
    Adds reserved c [] (FragmentParams.entries params) c' := by
  cases params with
  | none => cases h; exact .nil c
  | some params =>
      simp only [extend, named] at h
      split at h
      · next absent =>
          cases h
          cases params with
          | list items => exact .nil c
          | map entries =>
              rw [FragmentParams.isEmpty, List.isEmpty_iff] at absent
              rw [absent]
              exact .nil c
      · cases params with
        | list items => cases h
        | map entries => exact addNamed_adds h

theorem collect_adds (named : style.isNamed = true) {c c' : Collector} {part : Part}
    {marks : List String} (h : c.collect style reserved part = .ok (marks, c')) :
    ∃ names, names.length = part.places.length ∧ marks = names.map style.placeholder ∧
      Adds reserved c names (NamedPart.entries ⟨part, names⟩) c' := by
  cases part with
  | fragment clause sql params =>
      obtain ⟨c₁, hextend, h⟩ := ok_bind_iff.mp h
      cases h
      exact ⟨[], rfl, rfl, extend_adds named hextend⟩
  | plain | leaf | assignment | inserted =>
      obtain ⟨names, c₁, hbind, hlength, adds⟩ := bindAll_named named c (Part.places _)
      cases (congrArg Except.ok hbind).symm.trans h
      refine ⟨names, hlength, rfl, ?_⟩
      simpa only [NamedPart.entries, Part.supplied, List.append_nil] using adds

/-- A run adds what its parts add, one part after the other. -/
theorem run_adds (named : style.isNamed = true) {c c' : Collector} {parts : List Part}
    {marks : List (List String)} (run : Run style reserved c parts marks c') :
    ∃ written : List NamedPart, written.map (·.part) = parts ∧
      (∀ w ∈ written, w.names.length = w.part.places.length) ∧
      marks = written.map (fun w => w.names.map style.placeholder) ∧
      Adds reserved c (written.flatMap (·.names)) (written.flatMap NamedPart.entries) c' := by
  induction run with
  | nil c => exact ⟨[], rfl, by simp, rfl, .nil c⟩
  | @cons c c₁ c₂ part marks parts rest step run ih =>
      obtain ⟨names, hlength, rfl, first⟩ := collect_adds named step
      obtain ⟨written, rfl, lengths, rfl, later⟩ := ih
      refine ⟨⟨part, names⟩ :: written, rfl, ?_, rfl, first.trans later⟩
      intro w hw
      obtain rfl | hw := List.mem_cons.mp hw
      · exact hlength
      · exact lengths w hw

end Collector

namespace FragmentParams

/-- A name that begins with no colon and is bound for a key is also claimed by the key. -/
theorem claimed_of_boundName {key name : String} {c : Char} {rest : List Char}
    (hname : name.toList = c :: rest) (hc : c ≠ ':') (h : boundName key = name) :
    String.ofList (key.toList.dropWhile (· == ':')) = name := by
  simp only [boundName] at h
  have kept : (c :: rest).dropWhile (· == ':') = c :: rest :=
    List.dropWhile_cons_of_neg (by simpa using hc)
  split at h
  · next key' hkey =>
      have hrest : key' = c :: rest := by rw [← hname, ← h, String.toList_ofList]
      rw [hkey, hrest, List.dropWhile_cons_of_pos (by rfl), kept, ← hname, String.ofList_toList]
  · rw [h, hname, kept, ← hname, String.ofList_toList]

/-- A generated name that is not claimed is bound for no key. -/
theorem numberedName_not_bound {n : Nat} {params : FragmentParams}
    (h : Collector.numberedName n ∉ params.claimedNames) :
    ∀ entry ∈ entries (some params), entry.1 ≠ Collector.numberedName n := by
  intro entry hentry same
  cases params with
  | list items => cases hentry
  | map given =>
      obtain ⟨⟨key, v⟩, hkey, rfl⟩ := List.mem_map.mp hentry
      have claimed := claimed_of_boundName (Collector.toList_numberedName n) (by decide) same
      exact h (List.mem_map.mpr ⟨(key, v), hkey, claimed⟩)

end FragmentParams

/-- A name of a fragment that is taken when the fragment is reached was brought by a fragment before
it: a generated name is never what makes a name of a fragment a repeated one. -/
theorem Collector.taken_by_fragment {k : Compiler} (named : k.style.isNamed = true) {s : Statement}
    {parts before after : List Part}
    (layout : (∃ operation, parts = s.parts k operation) ∨ parts = s.countParts k)
    {clause : FragmentClause} {sql : String} {params : FragmentParams}
    (reached : parts = before ++ .fragment clause sql (some params) :: after)
    {marks : List (List String)} {c : Collector}
    (run : Run k.style s.reservedNames {} before marks c) {entry : String × Value}
    (h : entry ∈ FragmentParams.entries (some params)) (taken : entry.1 ∈ Fields.keys c.named) :
    ∃ part ∈ before, entry.1 ∈ Fields.keys part.supplied := by
  have walked : params ∈ s.fragmentParams := by
    have within : params ∈ parts.filterMap Part.params :=
      List.mem_filterMap.mpr ⟨.fragment clause sql (some params), by rw [reached]; simp, rfl⟩
    obtain ⟨operation, rfl⟩ | rfl := layout
    · exact Statement.params_parts_subset k s operation within
    · exact Statement.params_countParts_subset k s within
  obtain ⟨written, rfl, -, -, adds⟩ := run_adds named run
  rw [adds.named, List.nil_append] at taken
  obtain ⟨found, hfound, same⟩ := List.mem_map.mp taken
  obtain ⟨w, hw, hentries⟩ := List.mem_flatMap.mp hfound
  obtain generated | supplied := List.mem_append.mp hentries
  · have name : found.1 ∈ written.flatMap (·.names) :=
      List.mem_flatMap.mpr ⟨w, hw, (List.of_mem_zip generated).1⟩
    obtain ⟨⟨n, hn⟩, free⟩ := adds.generated found.1 name
    rw [hn] at free same
    have unclaimed : numberedName n ∉ params.claimedNames := fun claimed =>
      free (List.mem_flatMap.mpr ⟨params, walked, claimed⟩)
    exact absurd same.symm (FragmentParams.numberedName_not_bound unclaimed entry h)
  · exact ⟨w.part, List.mem_map_of_mem hw, List.mem_map.mpr ⟨found, supplied, same⟩⟩

/-- A text in a named style: its parts with the names of their placeholders, and parameters that
hold what the parts add and nothing else. No name is added twice, so each is found with the value it
was added with, and no generated name is bound by a fragment, wherever that stands. -/
structure Compiled.NamesApart (k : Compiler) (s : Statement) (written : List NamedPart)
    (c : Compiled) : Prop where
  names : ∀ w ∈ written, w.names.length = w.part.places.length
  sql : c.sql = String.join (written.map (NamedPart.text k))
  parameters : c.parameters = Fields.toValue (written.flatMap NamedPart.entries)
  distinct : (Fields.keys (written.flatMap NamedPart.entries)).Nodup
  found : ∀ w ∈ written, ∀ entry ∈ w.entries,
    Fields.get? entry.1 (written.flatMap NamedPart.entries) = some entry.2
  generated : (written.flatMap (·.names)).Nodup
  apart : ∀ name ∈ written.flatMap (·.names), ∀ w ∈ written, ∀ entry ∈ w.part.supplied,
    entry.1 ≠ name
  unclaimed : ∀ name ∈ written.flatMap (·.names), ∀ params ∈ s.fragmentParams,
    ∀ entry ∈ FragmentParams.entries (some params), entry.1 ≠ name

namespace Compiler

section

variable {k : Compiler} (named : k.style.isNamed = true)
include named

/-- What is written from a layout in a named style has its names apart. -/
theorem namesApart_of_write {s : Statement} {parts : List Part}
    (sound : ∀ part ∈ parts, part.IsSound) {compiled : Compiled}
    (h : k.write s.reservedNames (parts.flatMap Part.pieces) =
      .ok (compiled.sql, compiled.parameters)) :
    ∃ written : List NamedPart, written.map (·.part) = parts ∧ compiled.NamesApart k s written := by
  obtain ⟨last, hlast, hparameters⟩ := write_ok.mp h
  obtain ⟨marks, run, hsql⟩ := writeFrom_parts sound hlast
  obtain ⟨written, rfl, names, rfl, adds⟩ := Collector.run_adds named run
  have hnamed : last.named = written.flatMap NamedPart.entries := adds.named
  have distinct : (Fields.keys (written.flatMap NamedPart.entries)).Nodup :=
    hnamed ▸ adds.distinct List.nodup_nil
  have keys : Fields.keys (written.flatMap NamedPart.entries) =
      written.flatMap fun w => w.names ++ Fields.keys w.part.supplied := by
    rw [Fields.keys, List.map_flatMap]
    refine List.flatMap_congr fun w hw => ?_
    rw [NamedPart.entries, List.map_append, List.map_fst_zip (Nat.le_of_eq (names w hw))]
    rfl
  have split : (written.flatMap (·.names) ++
      written.flatMap fun w => Fields.keys w.part.supplied).Nodup := by
    rw [(List.flatMap_append_perm written _ _).nodup_iff, ← keys]
    exact distinct
  obtain ⟨generated, -, apart⟩ := List.nodup_append.mp split
  refine ⟨written, rfl, ⟨names, ?_, ?_, distinct, ?_, generated, ?_, ?_⟩⟩
  · rw [hsql, List.zipWith_map, List.zipWith_self]
    rfl
  · rw [hparameters, Collector.parameters, named, if_pos rfl, hnamed]
  · intro w hw entry hentry
    exact Fields.get?_of_mem distinct (List.mem_flatMap.mpr ⟨w, hw, hentry⟩)
  · intro name hname w hw entry hentry same
    have supplied : entry.1 ∈ written.flatMap fun w => Fields.keys w.part.supplied :=
      List.mem_flatMap.mpr ⟨w, hw, List.mem_map_of_mem hentry⟩
    exact apart name hname entry.1 supplied same.symm
  · intro name hname params hparams
    obtain ⟨⟨n, rfl⟩, free⟩ := adds.generated name hname
    refine FragmentParams.numberedName_not_bound fun claimed => free ?_
    exact List.mem_flatMap.mpr ⟨params, hparams, claimed⟩

/-- In a named style generated names collide neither with one another nor with the parameters of
fragments, for every operation and for the counting form, and every name holds the value that its
placeholder or its fragment stands for. -/
theorem named_parameters_apart (s : Statement) (given : s.isRaw = false) :
    (∀ c, k.compile s = .ok c → ∃ operation, s.operation = some operation ∧
        ∃ written : List NamedPart, written.map (·.part) = s.parts k operation ∧
          c.NamesApart k s written) ∧
      (∀ c, k.compileCount s = .ok c →
        ∃ written : List NamedPart, written.map (·.part) = s.countParts k ∧
          c.NamesApart k s written) := by
  constructor
  · intro c h
    obtain ⟨operation, hoperation, hwrite⟩ := compile_ok given h
    exact ⟨operation, hoperation,
      namesApart_of_write named (Statement.parts_isSound k s operation) hwrite⟩
  · intro c h
    exact namesApart_of_write named (Statement.countParts_isSound k s) (compileCount_ok h)

end

/-- An UPDATE whose fragments, deep in its conditions, claim names that would be generated before
them. -/
def claimingUpdate : Statement where
  operation := some .update
  table := some "users"
  values := [("name", .text "new")]
  predicates := [.leaf "age" .gt (.one (.int 18)) .and,
    .group [.raw "id = :p1" (some (.map [("p1", .int 5)])) .and,
      .group [.raw "id > :p3" (some (.map [(":p3", .int 6)])) .and,
        .leaf "state" .eq (.one (.text "old")) .and] .or] .and]

theorem named_parameters_apart_of_claiming :
    ∃ k : Compiler, k.style.isNamed = true ∧ claimingUpdate.isRaw = false ∧
      ∃ c, k.compile claimingUpdate = .ok c ∧
        c.sql = "UPDATE users SET name = :p2 WHERE age > :p4 AND (id = :p1 OR (id > :p3 AND " ++
          "state = :p5))" ∧
        c.parameters = Fields.toValue [("p2", .text "new"), ("p4", .int 18), ("p1", .int 5),
          ("p3", .int 6), ("p5", .text "old")] ∧
        ∃ written : List NamedPart, written.map (·.part) = claimingUpdate.parts k .update ∧
          c.NamesApart k claimingUpdate written := by
  let k : Compiler := { style := .named }
  have named : k.style.isNamed = true := rfl
  have text : (k.compile claimingUpdate).toOption.map (·.sql) =
      some ("UPDATE users SET name = :p2 WHERE age > :p4 AND (id = :p1 OR (id > :p3 AND " ++
        "state = :p5))") := by decide +kernel
  have parameters : (k.compile claimingUpdate).toOption.map (·.parameters) =
      some (Fields.toValue [("p2", .text "new"), ("p4", .int 18), ("p1", .int 5),
        ("p3", .int 6), ("p5", .text "old")]) := rfl
  refine ⟨k, named, rfl, ?_⟩
  cases hc : k.compile claimingUpdate with
  | error e => rw [hc] at text; cases text
  | ok c =>
      rw [hc] at text parameters
      obtain ⟨operation, hoperation, written⟩ :=
        (named_parameters_apart named claimingUpdate rfl).1 c hc
      cases hoperation
      exact ⟨c, rfl, Option.some.inj text, Option.some.inj parameters, written⟩

end Compiler
end FluentSql
