import FluentSql.Value.Key

/-!
Maps in order of insertion: what is found under a name after an entry was put in, and in a map
without repeated names. Which keys a map has, and in which order, does not depend on its values.
-/

namespace FluentSql.Fields

variable {α β κ : Type} [DecidableEq κ] (name : κ)

theorem get?_cons (key : κ) (v : α) (rest : List (κ × α)) :
    get? name ((key, v) :: rest) = if name = key then some v else get? name rest := by
  by_cases same : name = key
  · simp [get?, same]
  · simp [get?, List.lookup_cons, same, beq_false_of_ne same]

theorem get?_insert (fields : List (κ × α)) (key : κ) (v : α) :
    get? name (insert fields key v) = if name = key then some v else get? name fields := by
  induction fields with
  | nil => rw [insert, get?_cons]
  | cons field rest ih =>
      obtain ⟨k, w⟩ := field
      by_cases same : k = key
      · subst same
        rw [insert, if_pos rfl, get?_cons, get?_cons]
        split <;> rfl
      · rw [insert, if_neg same, get?_cons, get?_cons, ih]
        by_cases found : name = k
        · rw [if_pos found, if_pos found, if_neg (found ▸ same)]
        · rw [if_neg found, if_neg found]

theorem get?_of_mem {fields : List (κ × α)} (distinct : (keys fields).Nodup)
    {entry : κ × α} (h : entry ∈ fields) : get? entry.1 fields = some entry.2 := by
  induction fields with
  | nil => cases h
  | cons first rest ih =>
      obtain ⟨fresh, distinct⟩ := List.nodup_cons.mp distinct
      rw [show first :: rest = (first.1, first.2) :: rest from rfl, get?_cons]
      obtain rfl | h := List.mem_cons.mp h
      · rw [if_pos rfl]
      · rw [if_neg fun same => fresh (List.mem_map.mpr ⟨entry, h, same⟩)]
        exact ih distinct h

/-- A new key goes to the end; one that is present stays where it is. -/
theorem keys_insert (fields : List (κ × α)) (key : κ) (v : α) :
    keys (insert fields key v) =
      if key ∈ keys fields then keys fields else keys fields ++ [key] := by
  induction fields with
  | nil => rfl
  | cons field rest ih =>
      obtain ⟨k, w⟩ := field
      by_cases same : k = key
      · simp [insert, keys, same]
      · have kept : keys (insert ((k, w) :: rest) key v) = k :: keys (insert rest key v) := by
          simp [insert, keys, same]
        have cons : keys ((k, w) :: rest) = k :: keys rest := rfl
        rw [kept, cons, ih]
        by_cases known : key ∈ keys rest <;> simp [known, Ne.symm same]

theorem keys_insertAll (fields more : List (κ × α)) :
    keys (insertAll fields more) = (keys more).foldl
      (fun known key => if key ∈ known then known else known ++ [key]) (keys fields) := by
  induction more generalizing fields with
  | nil => rfl
  | cons field more ih =>
      have step := ih (insert fields field.1 field.2)
      rw [keys_insert] at step
      exact step

theorem mem_keys_insertAll {fields more : List (κ × α)}
    (h : name ∈ keys (insertAll fields more)) : name ∈ keys fields ∨ name ∈ keys more := by
  induction more generalizing fields with
  | nil => exact .inl h
  | cons field more ih =>
      have step : name ∈ keys (insertAll (insert fields field.1 field.2) more) := h
      obtain known | later := ih step
      · rw [keys_insert] at known
        split at known
        · exact .inl known
        · obtain old | new := List.mem_append.mp known
          · exact .inl old
          · exact .inr (List.mem_cons.mpr (.inl (List.mem_singleton.mp new)))
      · exact .inr (List.mem_cons_of_mem _ later)

theorem insert_new {fields : List (κ × α)} {key : κ} (new : key ∉ keys fields) (v : α) :
    insert fields key v = fields ++ [(key, v)] := by
  induction fields with
  | nil => rfl
  | cons field rest ih =>
      obtain ⟨first, others⟩ := not_or.mp fun known => new (List.mem_cons.mpr known)
      rw [insert, if_neg (Ne.symm first), ih others]
      rfl

/-- Pairs without repeated names are a map as they stand. -/
theorem ofPairs_of_nodup {pairs : List (κ × α)} (distinct : (keys pairs).Nodup) :
    ofPairs pairs = pairs := by
  have all (fields more : List (κ × α)) (distinct : (keys (fields ++ more)).Nodup) :
      insertAll fields more = fields ++ more := by
    induction more generalizing fields with
    | nil => exact (List.append_nil fields).symm
    | cons field more ih =>
        have new : field.1 ∉ keys fields := by
          intro known
          rw [keys, List.map_append, List.nodup_append] at distinct
          exact distinct.2.2 field.1 known field.1 List.mem_cons_self rfl
        rw [List.append_cons] at distinct ⊢
        rw [← ih _ distinct, ← insert_new new]
        rfl
  exact all [] pairs distinct

theorem mem_of_get? {fields : List (κ × α)} {name : κ} {x : α}
    (h : get? name fields = some x) : (name, x) ∈ fields := by
  obtain ⟨before, after, rfl, -⟩ := List.lookup_eq_some_iff.mp h
  exact List.mem_append_right _ List.mem_cons_self

theorem get?_eq_none {fields : List (κ × α)} {name : κ} (absent : name ∉ keys fields) :
    get? name fields = none := by
  rw [get?, List.lookup_eq_none_iff]
  intro field hm
  exact bne_iff_ne.mpr fun same => absent (List.mem_map.mpr ⟨field, hm, same.symm⟩)

theorem get?_map (f : α → β) (fields : List (κ × α)) (name : κ) :
    get? name (fields.map fun (key, x) => (key, f x)) = (get? name fields).map f := by
  induction fields with
  | nil => rfl
  | cons field rest ih =>
      obtain ⟨key, x⟩ := field
      rw [List.map_cons, get?_cons, get?_cons, ih]
      split <;> rfl

theorem get?_filter (p : κ → Bool) (fields : List (κ × α)) (name : κ) :
    get? name (fields.filter fun (key, _) => p key) =
      if p name then get? name fields else none := by
  induction fields with
  | nil => simp [get?]
  | cons field rest ih =>
      obtain ⟨key, x⟩ := field
      by_cases same : name = key
      · subst same
        cases kept : p name <;> simp [kept, get?_cons, ih]
      · cases kept : p key <;> simp [kept, get?_cons, same, ih]

theorem get?_insertAll {fields more : List (κ × α)} (distinct : (keys more).Nodup)
    (name : κ) :
    get? name (insertAll fields more) = (get? name more).or (get? name fields) := by
  induction more generalizing fields with
  | nil => rfl
  | cons field more ih =>
      obtain ⟨key, v⟩ := field
      obtain ⟨fresh, distinct⟩ := List.nodup_cons.mp distinct
      rw [show insertAll fields ((key, v) :: more) = insertAll (insert fields key v) more from rfl,
        ih distinct, get?_insert, get?_cons]
      by_cases same : name = key
      · subst same
        have absent : get? name more = none := by
          rw [get?, List.lookup_eq_none_iff]
          intro entry hm
          exact bne_iff_ne.mpr fun same => fresh (List.mem_map.mpr ⟨entry, hm, same.symm⟩)
        rw [if_pos rfl, if_pos rfl, absent]
        rfl
      · rw [if_neg same, if_neg same]

theorem nodup_keys_insert {fields : List (κ × α)} (distinct : (keys fields).Nodup)
    (key : κ) (v : α) : (keys (insert fields key v)).Nodup := by
  rw [keys_insert]
  split
  · exact distinct
  · next new =>
      refine List.nodup_append.mpr ⟨distinct, by simp, fun known hk key' hk' same => new ?_⟩
      rwa [← List.mem_singleton.mp hk', ← same]

theorem nodup_keys_insertAll {fields : List (κ × α)} (distinct : (keys fields).Nodup)
    (more : List (κ × α)) : (keys (insertAll fields more)).Nodup := by
  induction more generalizing fields with
  | nil => exact distinct
  | cons field more ih => exact ih (nodup_keys_insert distinct field.1 field.2)

end FluentSql.Fields

namespace FluentSql.Entries

variable {α β τ : Type} [DecidableEq τ]

theorem insert_new {entries : List (Value τ × α)} {key : Value τ}
    (new : ∀ entry ∈ entries, entry.1.sameKey key = false) (v : α) :
    insert entries key v = entries ++ [(key, v)] := by
  induction entries with
  | nil => rfl
  | cons entry rest ih =>
      obtain ⟨first, others⟩ := List.forall_mem_cons.mp new
      rw [insert, if_neg (Bool.eq_false_iff.mp first), ih others]
      rfl

/-- Pairs with new keys, no two of which are the same, go behind the entries. -/
theorem insertPairs_of_apart {entries more : List (Value τ × α)}
    (apart : (entries ++ more).Pairwise fun e e' => e.1.sameKey e'.1 = false) :
    more.foldl (fun entries pair => insert entries pair.1 pair.2) entries = entries ++ more := by
  induction more generalizing entries with
  | nil => exact (List.append_nil entries).symm
  | cons pair more ih =>
      have new : ∀ entry ∈ entries, entry.1.sameKey pair.1 = false := fun entry known =>
        (List.pairwise_append.mp apart).2.2 entry known pair List.mem_cons_self
      rw [List.append_cons] at apart ⊢
      rw [← ih apart, ← insert_new new]
      rfl

/-- Pairs no two of whose keys are the same are a map as they stand. -/
theorem ofPairs_of_apart {pairs : List (Value τ × α)}
    (apart : pairs.Pairwise fun e e' => e.1.sameKey e'.1 = false) : ofPairs pairs = pairs := by
  have behind : ([] ++ pairs : List (Value τ × α)).Pairwise fun e e' => e.1.sameKey e'.1 = false :=
    apart
  exact insertPairs_of_apart behind

theorem keys_insert (entries : List (Value τ × α)) (key : Value τ) (v : α) :
    (insert entries key v).map (·.1) =
      if (entries.map (·.1)).any (·.sameKey key) then entries.map (·.1)
      else entries.map (·.1) ++ [key] := by
  induction entries with
  | nil => rfl
  | cons entry rest ih =>
      obtain ⟨k, w⟩ := entry
      by_cases same : k.sameKey key = true
      · simp [insert, same]
      · rw [insert, if_neg same, List.map_cons, List.map_cons, List.any_cons, ih,
          Bool.eq_false_iff.mpr same, Bool.false_or]
        by_cases known : (rest.map (·.1)).any (·.sameKey key) = true
        · rw [if_pos known, if_pos known]
        · rw [if_neg known, if_neg known, List.cons_append]

theorem keys_ofPairs (pairs : List (Value τ × α)) :
    (ofPairs pairs).map (·.1) = (pairs.map (·.1)).foldl
      (fun known key => if known.any (·.sameKey key) then known else known ++ [key]) [] := by
  have fold (entries : List (Value τ × α)) :
      (pairs.foldl (fun entries pair => insert entries pair.1 pair.2) entries).map (·.1) =
        (pairs.map (·.1)).foldl
          (fun known key => if known.any (·.sameKey key) then known else known ++ [key])
          (entries.map (·.1)) := by
    induction pairs generalizing entries with
    | nil => rfl
    | cons pair pairs ih =>
        have step := ih (insert entries pair.1 pair.2)
        rw [keys_insert] at step
        exact step
  exact fold []

/-- Entries whose keys are texts. -/
def named (fields : List (τ × α)) : List (Value τ × α) :=
  fields.map fun (name, x) => (.text name, x)

theorem insert_named (fields : List (τ × α)) (name : τ) (x : α) :
    insert (named fields) (.text name) x = named (Fields.insert fields name x) := by
  induction fields with
  | nil => rfl
  | cons field rest ih =>
      obtain ⟨key, y⟩ := field
      by_cases same : key = name
      · simp [insert, named, Fields.insert, same]
      · simpa [insert, named, Fields.insert, same] using ih

theorem insert_map (f : α → β) (entries : List (Value τ × α)) (key : Value τ) (x : α) :
    insert (entries.map fun (k, y) => (k, f y)) key (f x) =
      (insert entries key x).map fun (k, y) => (k, f y) := by
  induction entries with
  | nil => rfl
  | cons entry rest ih =>
      obtain ⟨k, y⟩ := entry
      by_cases same : k.sameKey key = true
      · simp [insert, same]
      · simpa [insert, same] using ih

/-- The entries with named ones put in, one after the other. -/
def insertAll (entries : List (Value τ × α)) (more : List (τ × α)) : List (Value τ × α) :=
  more.foldl (fun entries field => insert entries (.text field.1) field.2) entries

/-- Keys that are present stay in front. -/
theorem prefix_keys_insertAll (entries : List (Value τ × α)) (more : List (τ × α)) :
    entries.map Prod.fst <+: (insertAll entries more).map Prod.fst := by
  induction more generalizing entries with
  | nil => exact List.prefix_rfl
  | cons field more ih =>
      refine List.IsPrefix.trans ?_ (ih (insert entries (.text field.1) field.2))
      rw [keys_insert]
      split
      · exact List.prefix_rfl
      · exact List.prefix_append _ _

variable {P : Value τ → Prop} {Q : α → Prop}

theorem forall_insert {entries : List (Value τ × α)} {key : Value τ} {x : α}
    (h : ∀ entry ∈ entries, P entry.1 ∧ Q entry.2) (hk : P key) (hx : Q x) :
    ∀ entry ∈ insert entries key x, P entry.1 ∧ Q entry.2 := by
  induction entries with
  | nil => exact List.forall_mem_singleton.mpr ⟨hk, hx⟩
  | cons entry rest ih =>
      obtain ⟨first, others⟩ := List.forall_mem_cons.mp h
      rw [insert]
      split
      · exact List.forall_mem_cons.mpr ⟨⟨first.1, hx⟩, others⟩
      · exact List.forall_mem_cons.mpr ⟨first, ih others⟩

theorem forall_insertAll {entries : List (Value τ × α)} {more : List (τ × α)}
    (h : ∀ entry ∈ entries, P entry.1 ∧ Q entry.2)
    (hm : ∀ field ∈ more, P (.text field.1) ∧ Q field.2) :
    ∀ entry ∈ insertAll entries more, P entry.1 ∧ Q entry.2 := by
  induction more generalizing entries with
  | nil => exact h
  | cons field more ih =>
      obtain ⟨first, others⟩ := List.forall_mem_cons.mp hm
      exact ih (forall_insert h first.1 first.2) others

theorem insertAll_map (f : α → β) (entries : List (Value τ × α)) (more : List (τ × α)) :
    insertAll (entries.map fun (k, y) => (k, f y)) (more.map fun (name, x) => (name, f x)) =
      (insertAll entries more).map fun (k, y) => (k, f y) := by
  induction more generalizing entries with
  | nil => rfl
  | cons field more ih =>
      rw [List.map_cons, insertAll, List.foldl_cons, insert_map]
      exact ih _

end FluentSql.Entries
