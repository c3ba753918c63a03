import Mathlib.Data.List.Induction
import FluentSql.Rows
import FluentSql.Proofs.KeyEquality
import FluentSql.Proofs.NamedFields
import FluentSql.Proofs.Outcome

/-!
Rows in their shapes. No shape loses a cell or keeps one twice: a map by name has one entry for each
column, a map by name and position two, and grouping is a stable partition of the rows by their
first cell. The groups stand in the order in which their keys are first seen, and in each group the
rest of its rows stands in the order of the rows.
-/

namespace FluentSql.Rows

theorem eraseDupsBy_loop_concat {α : Type} (r : α → α → Bool) (xs seen : List α) (x : α) :
    List.eraseDupsBy.loop r (xs ++ [x]) seen =
      if (List.eraseDupsBy.loop r xs seen).any (r x) then List.eraseDupsBy.loop r xs seen
      else List.eraseDupsBy.loop r xs seen ++ [x] := by
  induction xs generalizing seen with
  | nil =>
      simp only [List.nil_append, List.eraseDupsBy.loop, List.any_reverse]
      split
      · next known => rw [if_pos known]
      · next new => rw [if_neg (Bool.eq_false_iff.mp new), List.reverse_cons]
  | cons y xs ih =>
      rw [List.cons_append]
      by_cases known : seen.any (r y) = true
      · simp only [List.eraseDupsBy.loop, known, ih]
      · simp only [List.eraseDupsBy.loop, known, ih]

/-- A cell is kept unless an equal one stands before it. -/
theorem eraseDupsBy_concat {α : Type} (r : α → α → Bool) (xs : List α) (x : α) :
    (xs ++ [x]).eraseDupsBy r =
      if (xs.eraseDupsBy r).any (r x) then xs.eraseDupsBy r else xs.eraseDupsBy r ++ [x] :=
  eraseDupsBy_loop_concat r xs [] x

/-- The cells of which no equal one stands before them. -/
def firstSeen (cells : List Value) : List Value := cells.eraseDupsBy Value.sameKey

theorem firstSeen_concat (cells : List Value) (cell : Value) :
    firstSeen (cells ++ [cell]) =
      if (firstSeen cells).any cell.sameKey then firstSeen cells else firstSeen cells ++ [cell] :=
  eraseDupsBy_concat _ cells cell

theorem firstSeen_subset (cells : List Value) : firstSeen cells ⊆ cells := by
  induction cells using List.reverseRecOn with
  | nil => exact fun _ h => h
  | append_singleton cells cell ih =>
      rw [firstSeen_concat]
      split
      · exact fun c hc => List.mem_append_left _ (ih hc)
      · exact List.append_subset.mpr ⟨fun c hc => List.mem_append_left _ (ih hc),
          List.subset_append_right cells [cell]⟩

section

variable {cells : List Value} (usable : ∀ cell ∈ cells, cell.IsKey)
include usable

/-- Every cell has an equal one among those first seen. -/
theorem exists_firstSeen : ∀ cell ∈ cells, ∃ key ∈ firstSeen cells, cell.sameKey key = true := by
  induction cells using List.reverseRecOn with
  | nil => exact List.forall_mem_nil _
  | append_singleton cells last ih =>
      obtain ⟨earlier, here⟩ := List.forall_mem_append.mp usable
      rw [firstSeen_concat]
      split
      · next known =>
          exact List.forall_mem_append.mpr ⟨ih earlier, List.forall_mem_singleton.mpr
            (List.any_eq_true.mp known)⟩
      · refine List.forall_mem_append.mpr ⟨fun cell hcell => ?_, List.forall_mem_singleton.mpr
          ⟨last, List.mem_append_right _ (List.mem_singleton_self _), (here last
            (List.mem_singleton_self _)).self⟩⟩
        obtain ⟨key, hkey, same⟩ := ih earlier cell hcell
        exact ⟨key, List.mem_append_left _ hkey, same⟩

theorem firstSeen_apart :
    (firstSeen cells).Pairwise fun key key' => key.sameKey key' = false := by
  induction cells using List.reverseRecOn with
  | nil => exact .nil
  | append_singleton cells last ih =>
      obtain ⟨earlier, here⟩ := List.forall_mem_append.mp usable
      rw [firstSeen_concat]
      split
      · exact ih earlier
      · next new =>
          refine List.pairwise_append.mpr ⟨ih earlier, List.pairwise_singleton _ _,
            fun key hkey => List.forall_mem_singleton.mpr ?_⟩
          rw [(earlier key (firstSeen_subset cells hkey)).sameKey_comm
            (here last (List.mem_singleton_self _))]
          simp only [List.any_eq_true, not_exists, not_and, Bool.not_eq_true] at new
          exact new key hkey

end

/-- The first cell of a row. -/
def first (row : List Value) : Value := row.headD .none

/-- The cells after the first one, by the names of their columns. -/
def remaining (keys : List String) (row : List Value) : Value := .map (byName keys.tail row.tail)

def rowsUnder (key : Value) (rows : List (List Value)) : List (List Value) :=
  rows.filter fun row => key.sameKey (first row)

/-- The rows under each key, in the order in which the keys are first seen. -/
def groups (keys : List String) (rows : List (List Value)) : List (Value × List Value) :=
  (firstSeen (rows.map first)).map fun key => (key, (rowsUnder key rows).map (remaining keys))

theorem addTo_new {known : List Value} {f : Value → List Value} {key : Value}
    (new : ∀ k ∈ known, k.sameKey key = false) (row : Value) :
    addTo (known.map fun k => (k, f k)) key row =
      (known.map fun k => (k, f k)) ++ [(key, [row])] := by
  induction known with
  | nil => rfl
  | cons k known ih =>
      obtain ⟨here, later⟩ := List.forall_mem_cons.mp new
      rw [List.map_cons, addTo, if_neg (Bool.eq_false_iff.mp here), ih later, List.cons_append]

/-- A row joins the group whose key is the same as its own, of which there is one. -/
theorem addTo_known {known : List Value} {f : Value → List Value} {key : Value}
    (one : known.Pairwise fun k k' => k.sameKey key = true → k'.sameKey key = false)
    (there : ∃ k ∈ known, k.sameKey key = true) (row : Value) :
    addTo (known.map fun k => (k, f k)) key row =
      known.map fun k => (k, if k.sameKey key then f k ++ [row] else f k) := by
  induction known with
  | nil =>
      obtain ⟨k, hk, -⟩ := there
      cases hk
  | cons k known ih =>
      obtain ⟨first, others⟩ := List.pairwise_cons.mp one
      rw [List.map_cons, addTo, List.map_cons]
      split
      · next same =>
          refine congrArg _ (List.map_congr_left fun k' hk' => ?_)
          rw [if_neg (Bool.eq_false_iff.mp (first k' hk' same))]
      · next other =>
          obtain ⟨k', hk', same⟩ := there
          obtain rfl | hk' := List.mem_cons.mp hk'
          · exact absurd same other
          · rw [ih others ⟨k', hk', same⟩]

/-- Grouping one more row. -/
theorem groups_concat {keys : List String} {rows : List (List Value)} {row : List Value}
    (usable : ∀ r ∈ rows ++ [row], (first r).IsKey) :
    groups keys (rows ++ [row]) = addTo (groups keys rows) (first row) (remaining keys row) := by
  obtain ⟨earlier, here⟩ := List.forall_mem_append.mp usable
  have new : (first row).IsKey := here row (List.mem_singleton_self _)
  have cells : ∀ cell ∈ rows.map first, cell.IsKey := List.forall_mem_map.mpr earlier
  have known : ∀ key ∈ firstSeen (rows.map first), key.IsKey :=
    fun key hkey => cells key (firstSeen_subset _ hkey)
  have one : (firstSeen (rows.map first)).Pairwise fun k k' =>
      k.sameKey (first row) = true → k'.sameKey (first row) = false := by
    refine (firstSeen_apart cells).imp_of_mem fun {k k'} hk hk' apart same => ?_
    refine Bool.eq_false_iff.mpr fun same' => Bool.eq_false_iff.mp apart ?_
    rw [(known k' hk').sameKey_comm new] at same'
    exact (known k hk).sameKey_trans new (known k' hk') same same'
  simp only [groups, List.map_append, List.map_cons, List.map_nil, firstSeen_concat]
  have others (key : Value) : (rowsUnder key (rows ++ [row])).map (remaining keys) =
      if key.sameKey (first row) then (rowsUnder key rows).map (remaining keys) ++
        [remaining keys row] else (rowsUnder key rows).map (remaining keys) := by
    rw [rowsUnder, List.filter_append, List.filter_singleton, List.map_append]
    cases key.sameKey (first row) with
    | true => rfl
    | false => exact List.append_nil _
  split
  · next present =>
      obtain ⟨key, hkey, same⟩ := List.any_eq_true.mp present
      rw [new.sameKey_comm (known key hkey)] at same
      rw [addTo_known one ⟨key, hkey, same⟩]
      exact List.map_congr_left fun key _ => by rw [others]
  · next absent =>
      have fresh : ∀ key ∈ firstSeen (rows.map first), key.sameKey (first row) = false := by
        intro key hkey
        rw [(known key hkey).sameKey_comm new]
        refine Bool.eq_false_iff.mpr fun same => absent (List.any_eq_true.mpr ⟨key, hkey, same⟩)
      have none : rowsUnder (first row) rows = [] := by
        refine List.filter_eq_nil_iff.mpr fun earlier hearlier same => ?_
        obtain ⟨key, hkey, same'⟩ :=
          exists_firstSeen cells (first earlier) (List.mem_map_of_mem hearlier)
        have met := new.sameKey_trans (cells _ (List.mem_map_of_mem hearlier)) (known key hkey)
          same same'
        exact absent (List.any_eq_true.mpr ⟨key, hkey, met⟩)
      rw [addTo_new fresh, List.map_append]
      refine congrArg₂ _ (List.map_congr_left fun key hkey => ?_) ?_
      · rw [others, if_neg (Bool.eq_false_iff.mp (fresh key hkey))]
      · rw [List.map_singleton, others, none, if_pos new.self]
        rfl

/-- Rows are added to the groups one after the other. -/
theorem groupFrom_ok (keys : List String) {rows : List (List Value)}
    (given : ∀ row ∈ rows, row ≠ []) (usable : ∀ row ∈ rows, (first row).IsKey)
    (known : List (Value × List Value)) :
    groupFrom keys known rows = .ok (rows.foldl
      (fun known row => addTo known (first row) (remaining keys row)) known) := by
  induction rows generalizing known with
  | nil => rfl
  | cons row rows ih =>
      obtain ⟨here, givenRest⟩ := List.forall_mem_cons.mp given
      obtain ⟨key, usableRest⟩ := List.forall_mem_cons.mp usable
      cases row with
      | nil => exact absurd rfl here
      | cons cell cells =>
          have hashable : cell.hashable = true := key.hashable
          rw [groupFrom, if_pos hashable, ih givenRest usableRest]
          rfl

theorem foldl_addTo {keys : List String} {rows : List (List Value)}
    (usable : ∀ row ∈ rows, (first row).IsKey) :
    rows.foldl (fun known row => addTo known (first row) (remaining keys row)) [] =
      groups keys rows := by
  induction rows using List.reverseRecOn with
  | nil => rfl
  | append_singleton rows row ih =>
      rw [groups_concat usable, List.foldl_append,
        ih fun r hr => usable r (List.mem_append_left _ hr)]
      rfl

/-- The rows of all groups. -/
def grouped (groups : List (Value × List Value)) : List Value := groups.flatMap (·.2)

theorem length_grouped_addTo (groups : List (Value × List Value)) (key row : Value) :
    (grouped (addTo groups key row)).length = (grouped groups).length + 1 := by
  induction groups with
  | nil => rfl
  | cons group groups ih =>
      simp only [grouped] at ih
      rw [addTo]
      split
      · simp only [grouped, List.flatMap_cons, List.length_append, List.length_singleton]
        omega
      · simp only [grouped, List.flatMap_cons, List.length_append, ih]
        omega

theorem length_grouped_groups {keys : List String} {rows : List (List Value)}
    (usable : ∀ row ∈ rows, (first row).IsKey) :
    (grouped (groups keys rows)).length = rows.length := by
  induction rows using List.reverseRecOn with
  | nil => rfl
  | append_singleton rows row ih =>
      rw [groups_concat usable, length_grouped_addTo,
        ih fun r hr => usable r (List.mem_append_left _ hr), List.length_append,
        List.length_singleton]

/-- The place of a row in its group is the number of earlier rows in it. -/
theorem getElem_rowsUnder {key : Value} {row : List Value}
    (same : key.sameKey (first row) = true) (before after : List (List Value)) :
    (rowsUnder key (before ++ row :: after))[(rowsUnder key before).length]? = some row := by
  have here : rowsUnder key (row :: after) = row :: rowsUnder key after :=
    List.filter_cons_of_pos same
  simp only [rowsUnder, List.filter_append] at here ⊢
  rw [here, List.getElem?_append_right (Nat.le_refl _), Nat.sub_self, List.getElem?_cons_zero]

/-- A stable partition of rows by their first cell: the keys are the cells first seen, a group is
what remains of the rows under its key, and each row is found again at its place. -/
structure Partition (keys : List String) (rows : List (List Value))
    (groups : List (Value × List Value)) : Prop where
  order : groups.map (·.1) = (rows.map first).eraseDupsBy Value.sameKey
  distinct : groups.Pairwise fun group group' => group.1.sameKey group'.1 = false
  members : ∀ group ∈ groups, group.2 =
    (rows.filter fun row => group.1.sameKey (first row)).map (remaining keys)
  size : (grouped groups).length = rows.length
  placed : ∀ before row after, rows = before ++ row :: after → ∃ group ∈ groups,
    group.1.sameKey (first row) = true ∧
      group.2[(before.filter fun earlier => group.1.sameKey (first earlier)).length]? =
        some (remaining keys row)

theorem partition_groups {keys : List String} {rows : List (List Value)}
    (usable : ∀ row ∈ rows, (first row).IsKey) : Partition keys rows (groups keys rows) := by
  have cells : ∀ cell ∈ rows.map first, cell.IsKey := List.forall_mem_map.mpr usable
  refine ⟨?_, ?_, ?_, length_grouped_groups usable, ?_⟩
  · rw [groups, List.map_map, Function.comp_def]
    exact List.map_id _
  · exact List.pairwise_map.mpr (firstSeen_apart cells)
  · exact List.forall_mem_map.mpr fun _ _ => rfl
  · rintro before row after rfl
    have there : first row ∈ (before ++ row :: after).map first :=
      List.mem_map_of_mem (List.mem_append_right _ (List.mem_cons_self ..))
    obtain ⟨key, hkey, same⟩ := exists_firstSeen cells (first row) there
    rw [(cells _ there).sameKey_comm (cells key (firstSeen_subset _ hkey))] at same
    refine ⟨_, List.mem_map_of_mem hkey, same, ?_⟩
    rw [List.getElem?_map]
    exact congrArg (Option.map (remaining keys)) (getElem_rowsUnder same before after)

theorem sameKey_ofNat (m n : Nat) : (Value.ofNat m).sameKey (.ofNat n) = (m == n) :=
  decide_eq_decide.mpr Int.ofNat_inj

section

variable {keys : List String} {row : List Value} (distinct : keys.Nodup)
  (width : row.length = keys.length)

/-- The cells by name, as they stand. -/
def named (keys : List String) (row : List Value) : List (Value × Value) :=
  (keys.zip row).map fun (key, cell) => (.text key, cell)

/-- The cells by position, counted from a number. -/
def numbered (n : Nat) (row : List Value) : List (Value × Value) :=
  (row.zipIdx n).map fun (cell, i) => (.ofNat i, cell)

include distinct width

theorem named_apart : (named keys row).Pairwise fun e e' => e.1.sameKey e'.1 = false := by
  have names : (keys.zip row).Pairwise fun e e' => e.1 ≠ e'.1 := by
    rw [← List.map_fst_zip (Nat.le_of_eq width.symm)] at distinct
    exact List.pairwise_map.mp distinct
  exact List.pairwise_map.mpr (names.imp fun apart => by simpa using apart)

theorem byName_eq : byName keys row = named keys row :=
  Entries.ofPairs_of_apart (named_apart distinct width)

/-- No entry by name has the key of one by position, so none takes the place of another. -/
theorem byPosition_eq : byPosition (byName keys row) row = named keys row ++ numbered 0 row := by
  have positions : (numbered 0 row).Pairwise fun e e' => e.1.sameKey e'.1 = false := by
    have indices := List.nodup_range' (s := 0) (n := row.length)
    rw [← List.zipIdx_map_snd] at indices
    refine List.pairwise_map.mpr ((List.pairwise_map.mp indices).imp fun {e e'} apart => ?_)
    rw [sameKey_ofNat]
    exact beq_eq_false_iff_ne.mpr apart
  have apart : (named keys row ++ numbered 0 row).Pairwise fun e e' =>
      e.1.sameKey e'.1 = false := by
    refine List.pairwise_append.mpr ⟨named_apart distinct width, positions, ?_⟩
    refine List.forall_mem_map.mpr fun e _ => List.forall_mem_map.mpr fun e' _ => ?_
    rfl
  rw [byName_eq distinct width, byPosition, ← Entries.insertPairs_of_apart apart, numbered,
    List.foldl_map]

end

theorem get?_cons {key k : Value} {v : Value} {entries : List (Value × Value)} :
    Entries.get? key ((k, v) :: entries) =
      if k.sameKey key then some v else Entries.get? key entries := by
  by_cases same : k.sameKey key = true
  · simp [Entries.get?, same]
  · simp [Entries.get?, same]

theorem get?_append_of_apart {key : Value} {entries more : List (Value × Value)}
    (apart : ∀ entry ∈ entries, entry.1.sameKey key = false) :
    Entries.get? key (entries ++ more) = Entries.get? key more := by
  have none : entries.find? (fun entry => entry.1.sameKey key) = none :=
    List.find?_eq_none.mpr fun entry hentry => Bool.eq_false_iff.mp (apart entry hentry)
  rw [Entries.get?, List.find?_append, none, Option.none_or, Entries.get?]

/-- Every cell is found under the name of its column. -/
def ByName (keys : List String) (row : List Value) (entries : List (Value × Value)) : Prop :=
  keys.map (fun name => Entries.get? (.text name) entries) = row.map some

/-- Every cell is found under its position. -/
def ByPosition (row : List Value) (entries : List (Value × Value)) : Prop :=
  (List.range row.length).map (fun i => Entries.get? (.ofNat i) entries) = row.map some

theorem named_append_byName {keys : List String} {row : List Value} (distinct : keys.Nodup)
    (width : row.length = keys.length) (more : List (Value × Value)) :
    ByName keys row (named keys row ++ more) := by
  induction keys generalizing row with
  | nil => rw [List.length_eq_zero_iff.mp width, ByName, List.map_nil, List.map_nil]
  | cons key keys ih =>
      obtain ⟨cell, row, rfl⟩ := List.exists_cons_of_length_eq_add_one width
      obtain ⟨new, distinct⟩ := List.nodup_cons.mp distinct
      have head : named (key :: keys) (cell :: row) ++ more =
          (.text key, cell) :: (named keys row ++ more) := rfl
      rw [ByName, head, List.map_cons, List.map_cons, get?_cons, if_pos (by simp),
        ← ih distinct (Nat.succ.inj width)]
      refine congrArg _ (List.map_congr_left fun name hname => ?_)
      have other : key ≠ name := fun same => new (same ▸ hname)
      rw [get?_cons, if_neg (by simpa using other)]

theorem get?_numbered (row : List Value) (n : Nat) :
    (List.range' n row.length).map (fun i => Entries.get? (.ofNat i) (numbered n row)) =
      row.map some := by
  induction row generalizing n with
  | nil => rfl
  | cons cell row ih =>
      have head : numbered n (cell :: row) = (.ofNat n, cell) :: numbered (n + 1) row := rfl
      rw [List.length_cons, List.range'_succ, head, List.map_cons, List.map_cons, get?_cons,
        sameKey_ofNat, if_pos (beq_self_eq_true n), ← ih (n + 1)]
      refine congrArg _ (List.map_congr_left fun i hi => ?_)
      have other : n ≠ i := by
        have later := (List.mem_range'_1.mp hi).1
        omega
      rw [get?_cons, sameKey_ofNat, if_neg (by simpa using other)]

theorem append_numbered_byPosition {entries : List (Value × Value)} (row : List Value)
    (named : ∀ entry ∈ entries, ∃ name, entry.1 = .text name) :
    ByPosition row (entries ++ numbered 0 row) := by
  have none (i : Nat) : Entries.get? (.ofNat i) (entries ++ numbered 0 row) =
      Entries.get? (.ofNat i) (numbered 0 row) := by
    refine get?_append_of_apart fun entry hentry => ?_
    obtain ⟨name, text⟩ := named entry hentry
    rw [text]
    rfl
  simp only [ByPosition, none]
  rw [← get?_numbered row 0, List.range_eq_range']

/-- Outside of grouping every row is shaped by itself. -/
theorem shape_single {keys : List String} {rows : List (List Value)} {style : FetchStyle}
    {f : List Value → Value} (single : style ≠ .group)
    (h : ∀ row, shapeOne keys row style = .ok (f row)) :
    shape keys rows style = .ok (.list (rows.map f)) := by
  have each : rows.mapM (fun row => shapeOne keys row style) = .ok (rows.map f) :=
    mapM_ok_iff.mpr (List.forall₂_map_right_iff.mpr (List.forall₂_same.mpr fun row _ => h row))
  cases style with
  | group => exact absurd rfl single
  | _ => exact ok_bind_iff.mpr ⟨_, each, rfl⟩

/-- Where every row has one cell for each column and the names of the columns are distinct, rows
keep all their cells in every shape. They are parted into groups, in which the cells after the first
one are found by name; or they are tuples; or maps in which every cell is found by name, or by name
and by position, with an entry for each. -/
theorem shapes_keep_rows {keys : List String} {rows : List (List Value)} (distinct : keys.Nodup)
    (width : ∀ row ∈ rows, row.length = keys.length) :
    (keys ≠ [] → (∀ row ∈ rows, (first row).IsKey) → ∃ groups,
      shape keys rows .group = .ok (.map (groups.map fun (key, members) => (key, .list members))) ∧
        Partition keys rows groups ∧
        ∀ row ∈ rows, ∃ entries, remaining keys row = .map entries ∧
          entries.length = keys.tail.length ∧ ByName keys.tail row.tail entries) ∧
    shape keys rows .num = .ok (.list (rows.map .tuple)) ∧
    (shape keys rows .assoc = .ok (.list (rows.map fun row => .map (byName keys row))) ∧
      ∀ row ∈ rows, (byName keys row).length = keys.length ∧
        ByName keys row (byName keys row)) ∧
    shape keys rows .both =
        .ok (.list (rows.map fun row => .map (byPosition (byName keys row) row))) ∧
      ∀ row ∈ rows, (byPosition (byName keys row) row).length = keys.length + row.length ∧
        ByName keys row (byPosition (byName keys row) row) ∧
        ByPosition row (byPosition (byName keys row) row) := by
  have length (row : List Value) (columns : List String) (h : row.length = columns.length) :
      (named columns row).length = columns.length := by
    rw [named, List.length_map, List.length_zip, h, Nat.min_self]
  have byNames (row : List Value) (columns : List String) (distinct : columns.Nodup)
      (h : row.length = columns.length) : ByName columns row (named columns row) := by
    have found := named_append_byName distinct h []
    rwa [List.append_nil] at found
  refine ⟨fun given usable => ⟨groups keys rows, ?_, partition_groups usable, ?_⟩,
    shape_single nofun fun _ => rfl, ⟨shape_single nofun fun _ => rfl, fun row hrow => ?_⟩,
    shape_single nofun fun _ => rfl, fun row hrow => ?_⟩
  · have filled : ∀ row ∈ rows, row ≠ [] := fun row hrow empty =>
      given (List.length_eq_zero_iff.mp ((width row hrow).symm.trans (by rw [empty]; rfl)))
    have grouped := groupFrom_ok keys filled usable []
    rw [foldl_addTo usable] at grouped
    exact ok_bind_iff.mpr ⟨_, grouped, rfl⟩
  · intro row hrow
    have tails : row.tail.length = keys.tail.length := by
      rw [List.length_tail, List.length_tail, width row hrow]
    have apart : keys.tail.Nodup := distinct.sublist (List.tail_sublist keys)
    refine ⟨named keys.tail row.tail, ?_, length _ _ tails, byNames _ _ apart tails⟩
    rw [remaining, byName_eq apart tails]
  · rw [byName_eq distinct (width row hrow)]
    exact ⟨length row keys (width row hrow), byNames row keys distinct (width row hrow)⟩
  · rw [byPosition_eq distinct (width row hrow)]
    refine ⟨?_, named_append_byName distinct (width row hrow) _,
      append_numbered_byPosition row fun entry hentry => ?_⟩
    · rw [List.length_append, length row keys (width row hrow), numbered, List.length_map,
        List.length_zipIdx]
    · obtain ⟨⟨name, cell⟩, -, rfl⟩ := List.mem_map.mp hentry
      exact ⟨name, rfl⟩

/-- Rows under the names `dept` and `name` whose first cells are `1`, `True`, `x` and `1.0`. -/
def mixedRows : List (List Value) :=
  [[.int 1, .text "a"], [.bool true, .text "b"], [.text "x", .none],
    [.float (.finite false 1 0), .text "a"]]

theorem shapes_keep_rows_of_mixed : (["dept", "name"].Nodup ∧
    (∀ row ∈ mixedRows, row.length = 2) ∧ ∀ row ∈ mixedRows, (first row).IsKey) ∧
    ∃ groups, shape ["dept", "name"] mixedRows .group =
        .ok (.map (groups.map fun (key, members) => (key, .list members))) ∧
      Partition ["dept", "name"] mixedRows groups ∧ groups.map (·.1) = [.int 1, .text "x"] := by
  have width : ∀ row ∈ mixedRows, row.length = 2 := by decide
  have usable : ∀ row ∈ mixedRows, (first row).IsKey := by decide +kernel
  have distinct : ["dept", "name"].Nodup := by decide
  obtain ⟨groups, shaped, parted, -⟩ := (shapes_keep_rows distinct width).1 nofun usable
  refine ⟨⟨distinct, width, usable⟩, groups, shaped, parted, ?_⟩
  exact parted.order.trans rfl

end FluentSql.Rows
