import Mathlib.Data.List.Induction
import Mathlib.Order.Bounds.Defs
import FluentSql.Proofs.Named

/-!
The numbers of generated names over the whole life of a collector. A search goes from the number
that was tried last to the first one whose name is free, and ends since finitely many names are
taken. The names that a collector generated itself lie behind it, so that only reserved names and
those of fragments stand in its way: each name has the least number that is left.
-/

namespace FluentSql.Collector

/-- A search that nothing bounds: the numbers after `last` that are passed over, since their names
are taken, and the number whose name is free. -/
inductive Search (taken : List String) : (last : Nat) → List Nat → (found : Nat) → Prop
  | stop {last : Nat} (free : numberedName (last + 1) ∉ taken) : Search taken last [] (last + 1)
  | pass {last found : Nat} {passed : List Nat} (blocked : numberedName (last + 1) ∈ taken)
      (on : Search taken (last + 1) passed found) :
      Search taken last ((last + 1) :: passed) found

namespace Search

variable {taken : List String} {last found found' : Nat} {passed passed' : List Nat}

theorem lt (h : Search taken last passed found) : last < found := by
  induction h with
  | stop free => exact Nat.lt_succ_self _
  | pass blocked on ih => exact Nat.lt_of_succ_lt ih

theorem free (h : Search taken last passed found) : numberedName found ∉ taken := by
  induction h with
  | stop free => exact free
  | pass blocked on ih => exact ih

/-- A search passes over every number between its ends. -/
theorem mem_passed (h : Search taken last passed found) {i : Nat} :
    i ∈ passed ↔ last < i ∧ i < found := by
  induction h with
  | stop free =>
      simp only [List.not_mem_nil, false_iff]
      omega
  | pass blocked on ih =>
      have reach := on.lt
      rw [List.mem_cons, ih]
      omega

theorem blocked (h : Search taken last passed found) {i : Nat} (mem : i ∈ passed) :
    numberedName i ∈ taken := by
  induction h with
  | stop free => cases mem
  | pass blocked on ih =>
      obtain rfl | mem := List.mem_cons.mp mem
      · exact blocked
      · exact ih mem

theorem unique (h : Search taken last passed found) (h' : Search taken last passed' found') :
    passed = passed' ∧ found = found' := by
  induction h generalizing passed' with
  | stop free =>
      cases h' with
      | stop => exact ⟨rfl, rfl⟩
      | pass blocked => exact absurd blocked free
  | pass blocked on ih =>
      cases h' with
      | stop free => exact absurd blocked free
      | pass _ on' =>
          obtain ⟨rfl, rfl⟩ := ih on'
          exact ⟨rfl, rfl⟩

/-- A free number is found when all numbers before it are taken. -/
theorem of_first (reach : last < found) (free : numberedName found ∉ taken)
    (blocked : ∀ i, last < i → i < found → numberedName i ∈ taken) :
    ∃ passed, Search taken last passed found := by
  induction hd : found - last generalizing last with
  | zero => omega
  | succ d ih =>
      by_cases next : found = last + 1
      · subst next
        exact ⟨[], .stop free⟩
      · obtain ⟨passed, on⟩ :=
          @ih (last + 1) (by omega) (fun i hi => blocked i (Nat.lt_of_succ_lt hi))
          (by omega)
        exact ⟨_, .pass (blocked _ (Nat.lt_succ_self last) (by omega)) on⟩

end Search

theorem le_firstFree (taken : List String) (fuel n : Nat) : n ≤ firstFree taken fuel n := by
  induction fuel generalizing n with
  | zero => exact Nat.le_refl n
  | succ fuel ih =>
      rw [firstFree]
      split
      · exact Nat.le_of_succ_le (ih (n + 1))
      · exact Nat.le_refl n

/-- The number of the next name is where a search ends, whatever is reserved and collected. -/
theorem search_nextNumber (reserved : List String) (c : Collector) :
    ∃ passed,
      Search (reserved ++ Fields.keys c.named) c.counter passed (c.nextNumber reserved) :=
  Search.of_first (le_firstFree _ _ _) (firstFree_not_mem _ _) fun _ above below =>
    mem_of_lt_firstFree _ above below

/-- A value is bound to the name that a search ends at. -/
theorem bind_of_search {style : Style} (named : style.isNamed = true) {reserved : List String}
    {c : Collector} {passed : List Nat} {n : Nat}
    (search : Search (reserved ++ Fields.keys c.named) c.counter passed n) (v : Value) :
    c.bind style reserved v = (style.placeholder (numberedName n),
      { c with counter := n, named := c.named ++ [(numberedName n, v)] }) := by
  obtain ⟨passed', search'⟩ := search_nextNumber reserved c
  obtain ⟨-, rfl⟩ := search.unique search'
  exact bind_named named c v

/-- A call to a collector. -/
inductive Call where
  | bind (value : Value)
  | extend (clause : FragmentClause) (params : Option FragmentParams)

/-- What a call in a named style did: the numbers that it passed over and the one that it issued, or
the names that it added. -/
inductive Effect where
  | issued (passed : List Nat) (n : Nat)
  | added (names : List String)

namespace Effect

def issuedNumbers : Effect → List Nat
  | .issued _ n => [n]
  | .added _ => []

/-- The numbers that were passed over or issued. -/
def triedNumbers : Effect → List Nat
  | .issued passed n => passed ++ [n]
  | .added _ => []

def addedNames : Effect → List String
  | .issued _ _ => []
  | .added names => names

theorem flatMap_concat {α : Type} (f : Effect → List α) (effects : List Effect)
    (effect : Effect) : (effects ++ [effect]).flatMap f = effects.flatMap f ++ f effect := by
  rw [List.flatMap_append, List.flatMap_singleton]

theorem tried_of_issued {effects : List Effect} {n : Nat}
    (h : n ∈ effects.flatMap issuedNumbers) : n ∈ effects.flatMap triedNumbers := by
  obtain ⟨effect, mem, h⟩ := List.mem_flatMap.mp h
  refine List.mem_flatMap.mpr ⟨effect, mem, ?_⟩
  cases effect with
  | issued passed m => exact List.mem_append_right passed h
  | added names => cases h

/-- The numbers, counted from one, that may be issued after some effects: they are greater than
every number tried before, and their names are neither reserved nor added. -/
def Left (reserved : List String) (effects : List Effect) : Set Nat :=
  { n | 0 < n ∧ (∀ i ∈ effects.flatMap triedNumbers, i < n) ∧ numberedName n ∉ reserved ∧
    numberedName n ∉ effects.flatMap addedNames }

end Effect

/-- Adds the entries of a fragment's map up to the first one that is refused. -/
def addUntilRefused (clause : FragmentClause) : List (String × Value) → Collector → Collector
  | [], c => c
  | (key, value) :: rest, c =>
    match paramName clause key with
    | .error _ => c
    | .ok name =>
      if (Fields.keys c.named).contains name then c
      else addUntilRefused clause rest { c with named := c.named ++ [(name, value)] }

/-- What the parameters of a fragment leave of a collector. Where they are refused, the entries
before the refused one stay. -/
def afterExtend (style : Style) (clause : FragmentClause) (c : Collector) :
    Option FragmentParams → Collector
  | some (.map entries) => if style.isNamed then addUntilRefused clause entries c else c
  | params => (c.extend style clause params).toOption.getD c

variable {style : Style} {reserved : List String} {c c' : Collector}

/-- The entries that stay are the longest beginning that is taken, and they leave what adding them
gives: either all entries are taken, or all are refused for the next one. -/
theorem addUntilRefused_spec (clause : FragmentClause) (entries : List (String × Value))
    (c : Collector) :
    ∃ taken rest, entries = taken ++ rest ∧
      addNamed clause taken c = .ok (addUntilRefused clause entries c) ∧
      ∀ entry more, rest = entry :: more →
        ∃ e, addNamed clause (taken ++ [entry]) c = .error e ∧
          addNamed clause entries c = .error e := by
  induction entries generalizing c with
  | nil => exact ⟨[], [], rfl, rfl, nofun⟩
  | cons entry entries ih =>
      have stops {e : Error} (left : addUntilRefused clause (entry :: entries) c = c)
          (refused : ∀ rest, addNamed clause (entry :: rest) c = .error e) :
          ∃ taken rest, entry :: entries = taken ++ rest ∧
            addNamed clause taken c = .ok (addUntilRefused clause (entry :: entries) c) ∧
            ∀ next more, rest = next :: more →
              ∃ e, addNamed clause (taken ++ [next]) c = .error e ∧
                addNamed clause (entry :: entries) c = .error e := by
        refine ⟨[], _, rfl, by rw [left]; rfl, fun next more same => ?_⟩
        cases same
        exact ⟨e, refused [], refused entries⟩
      cases hname : paramName clause entry.1 with
      | error e =>
          refine stops (e := e) ?_ fun rest => ?_
          · simp only [addUntilRefused, hname]
          · simp only [addNamed, hname]
      | ok name =>
          by_cases known : (Fields.keys c.named).contains name = true
          · refine stops (e := (Refusal.repeatedParam clause.text name).toError) ?_ fun rest => ?_
            · simp only [addUntilRefused, hname, known, if_true]
            · simp only [addNamed, hname, known, if_true]
              rfl
          · obtain ⟨taken, rest, split, left, next⟩ :=
              ih { c with named := c.named ++ [(name, entry.2)] }
            refine ⟨entry :: taken, rest, by rw [split, List.cons_append], ?_, ?_⟩
            · simp only [addNamed, addUntilRefused, hname, if_neg known, left]
            · simpa only [List.cons_append, addNamed, hname, if_neg known] using next

theorem addUntilRefused_of_ok {clause : FragmentClause} {entries : List (String × Value)}
    (h : addNamed clause entries c = .ok c') : addUntilRefused clause entries c = c' := by
  obtain ⟨taken, rest, rfl, left, next⟩ := addUntilRefused_spec clause entries c
  cases rest with
  | nil =>
      rw [List.append_nil] at h left ⊢
      exact Except.ok.inj (left.symm.trans h)
  | cons entry more =>
      obtain ⟨e, -, refused⟩ := next entry more rfl
      cases h.symm.trans refused

/-- Parameters that are taken leave what the call gives. -/
theorem afterExtend_of_ok {clause : FragmentClause} {params : Option FragmentParams}
    (h : c.extend style clause params = .ok c') : c.afterExtend style clause params = c' := by
  match params with
  | none | some (.list _) =>
      rw [afterExtend, h]
      · rfl
      · simp
  | some (.map entries) =>
      simp only [extend] at h
      simp only [afterExtend]
      split at h
      · next absent =>
          rw [List.isEmpty_iff.mp absent, addUntilRefused, ite_self]
          exact Except.ok.inj h
      · cases named : style.isNamed with
        | true =>
            rw [named] at h
            exact addUntilRefused_of_ok h
        | false =>
            rw [named] at h
            cases h

theorem named_addUntilRefused (clause : FragmentClause) (entries : List (String × Value))
    (c : Collector) : ∃ added, (addUntilRefused clause entries c).named = c.named ++ added ∧
      (addUntilRefused clause entries c).counter = c.counter := by
  induction entries generalizing c with
  | nil => exact ⟨[], (List.append_nil _).symm, rfl⟩
  | cons entry entries ih =>
      simp only [addUntilRefused]
      split
      · exact ⟨[], (List.append_nil _).symm, rfl⟩
      · next name _ =>
          split
          · exact ⟨[], (List.append_nil _).symm, rfl⟩
          · obtain ⟨added, grown, kept⟩ := ih { c with named := c.named ++ [(name, entry.2)] }
            exact ⟨(name, entry.2) :: added, by rw [grown, List.append_assoc]; rfl, kept⟩

/-- Parameters of a fragment add names and try no number, whether they are taken or refused. -/
theorem named_afterExtend (named : style.isNamed = true) (clause : FragmentClause) (c : Collector)
    (params : Option FragmentParams) :
    ∃ added, (c.afterExtend style clause params).named = c.named ++ added ∧
      (c.afterExtend style clause params).counter = c.counter := by
  match params with
  | none => exact ⟨[], (List.append_nil _).symm, rfl⟩
  | some (.map entries) =>
      rw [afterExtend, if_pos named]
      exact named_addUntilRefused clause entries c
  | some (.list items) =>
      have same : c.afterExtend style clause (some (.list items)) = c := by
        simp only [afterExtend, extend, named]
        split <;> rfl
      rw [same]
      exact ⟨[], (List.append_nil _).symm, rfl⟩

/-- A call and its effect. A value is bound to the name that an unbounded search ends at. -/
inductive Step (style : Style) (reserved : List String) :
    Collector → Call → Effect → Collector → Prop
  | bind {c c' : Collector} {v : Value} {passed : List Nat} {n : Nat}
      (search : Search (reserved ++ Fields.keys c.named) c.counter passed n)
      (bound : c.bind style reserved v = (style.placeholder (numberedName n), c')) :
      Step style reserved c (.bind v) (.issued passed n) c'
  | extend {c : Collector} {clause : FragmentClause} {params : Option FragmentParams}
      {added : List (String × Value)}
      (grown : (c.afterExtend style clause params).named = c.named ++ added) :
      Step style reserved c (.extend clause params) (.added (Fields.keys added))
        (c.afterExtend style clause params)

/-- Calls to a new collector, each with its effect. -/
inductive Calls (style : Style) (reserved : List String) :
    List Call → List Effect → Collector → Prop
  | start : Calls style reserved [] [] {}
  | call {calls : List Call} {effects : List Effect} {c c' : Collector} {call : Call}
      {effect : Effect} (before : Calls style reserved calls effects c)
      (step : Step style reserved c call effect c') :
      Calls style reserved (calls ++ [call]) (effects ++ [effect]) c'

/-- Every call comes to its end. -/
theorem exists_step (named : style.isNamed = true) (reserved : List String) (c : Collector)
    (call : Call) : ∃ effect c', Step style reserved c call effect c' := by
  cases call with
  | bind v =>
      obtain ⟨passed, search⟩ := search_nextNumber reserved c
      exact ⟨_, _, .bind search (bind_of_search named search v)⟩
  | extend clause params =>
      obtain ⟨added, grown, -⟩ := named_afterExtend named clause c params
      exact ⟨_, _, .extend grown⟩

theorem Step.unique {call : Call} {effect effect' : Effect} {c₁ c₂ : Collector}
    (h : Step style reserved c call effect c₁) (h' : Step style reserved c call effect' c₂) :
    effect = effect' ∧ c₁ = c₂ := by
  cases h with
  | bind search bound =>
      cases h' with
      | bind search' bound' =>
          obtain ⟨rfl, rfl⟩ := search.unique search'
          exact ⟨rfl, congrArg Prod.snd (bound.symm.trans bound')⟩
  | extend grown =>
      cases h' with
      | extend grown' =>
          rw [List.append_cancel_left (grown.symm.trans grown')]
          exact ⟨rfl, rfl⟩

/-- What a collector knows of the effects that led to it: the counter is the number that was tried
last, and the collected names are those that were issued or added. -/
structure Accounts (effects : List Effect) (c : Collector) : Prop where
  bounded : ∀ i ∈ effects.flatMap Effect.triedNumbers, i ≤ c.counter
  reached : c.counter = 0 ∨ c.counter ∈ effects.flatMap Effect.triedNumbers
  collected : ∀ name, name ∈ Fields.keys c.named ↔
    (∃ n ∈ effects.flatMap Effect.issuedNumbers, name = numberedName n) ∨
      name ∈ effects.flatMap Effect.addedNames
  increasing : (effects.flatMap Effect.issuedNumbers).Pairwise (· < ·)

theorem Accounts.step (named : style.isNamed = true) {effects : List Effect} {call : Call}
    {effect : Effect} (h : Accounts effects c) (step : Step style reserved c call effect c') :
    Accounts (effects ++ [effect]) c' := by
  cases step with
  | @bind _ v passed n search bound =>
      cases bound.symm.trans (bind_of_search named search v)
      constructor
      · intro i hi
        rw [Effect.flatMap_concat, Effect.triedNumbers, List.mem_append, List.mem_append,
          List.mem_singleton] at hi
        have reach := search.lt
        obtain earlier | passed | rfl := hi
        · exact Nat.le_trans (h.bounded i earlier) (Nat.le_of_lt reach)
        · exact Nat.le_of_lt (search.mem_passed.mp passed).2
        · exact Nat.le_refl _
      · rw [Effect.flatMap_concat, Effect.triedNumbers]
        exact .inr (List.mem_append_right _ (List.mem_append_right _ (List.mem_singleton.mpr rfl)))
      · intro name
        rw [Fields.keys, List.map_append, List.mem_append, ← Fields.keys, h.collected,
          Effect.flatMap_concat, Effect.flatMap_concat, Effect.issuedNumbers, Effect.addedNames,
          List.append_nil]
        simp only [List.map_cons, List.map_nil, List.mem_append, List.mem_singleton]
        constructor
        · rintro ((⟨m, hm, rfl⟩ | added) | rfl)
          · exact .inl ⟨m, .inl hm, rfl⟩
          · exact .inr added
          · exact .inl ⟨n, .inr rfl, rfl⟩
        · rintro (⟨m, hm | rfl, rfl⟩ | added)
          · exact .inl (.inl ⟨m, hm, rfl⟩)
          · exact .inr rfl
          · exact .inl (.inr added)
      · rw [Effect.flatMap_concat, Effect.issuedNumbers, List.pairwise_append]
        refine ⟨h.increasing, List.pairwise_singleton _ _, fun i hi m hm => ?_⟩
        rw [List.mem_singleton] at hm
        subst hm
        exact Nat.lt_of_le_of_lt (h.bounded i (Effect.tried_of_issued hi)) search.lt
  | @extend clause params added grown =>
      obtain ⟨-, -, kept⟩ := named_afterExtend named clause c params
      constructor
      · rw [kept, Effect.flatMap_concat, Effect.triedNumbers, List.append_nil]
        exact h.bounded
      · rw [kept, Effect.flatMap_concat, Effect.triedNumbers, List.append_nil]
        exact h.reached
      · intro name
        rw [grown, Fields.keys, List.map_append, List.mem_append, ← Fields.keys, h.collected,
          Effect.flatMap_concat, Effect.flatMap_concat, Effect.issuedNumbers, List.append_nil,
          List.mem_append, or_assoc]
        rfl
      · rw [Effect.flatMap_concat, Effect.issuedNumbers, List.append_nil]
        exact h.increasing

/-- The number that a value gets is the least one that is left: the names that were issued before
lie behind the counter, so the search passes over reserved and added names only. -/
theorem Accounts.isLeast {effects : List Effect} (h : Accounts effects c) {passed : List Nat}
    {n : Nat} (search : Search (reserved ++ Fields.keys c.named) c.counter passed n) :
    IsLeast (Effect.Left reserved effects) n := by
  have free := search.free
  rw [List.mem_append, not_or, h.collected, not_or] at free
  constructor
  · refine ⟨Nat.zero_lt_of_lt search.lt, fun i hi => ?_, free.1, free.2.2⟩
    exact Nat.lt_of_le_of_lt (h.bounded i hi) search.lt
  · rintro m ⟨positive, above, unreserved, unadded⟩
    have beyond : c.counter < m := by
      obtain start | tried := h.reached
      · exact start ▸ positive
      · exact above _ tried
    -- A smaller number would be among those passed over, and no issued number is above itself.
    by_contra below
    have taken := search.blocked (search.mem_passed.mpr ⟨beyond, Nat.lt_of_not_le below⟩)
    rw [List.mem_append, h.collected] at taken
    obtain reserved | ⟨k, issued, same⟩ | added := taken
    · exact unreserved reserved
    · rw [numberedName_inj] at same
      exact absurd (above k (Effect.tried_of_issued issued)) (same ▸ Nat.lt_irrefl m)
    · exact unadded added

namespace Calls

variable {calls : List Call} {effects effects' : List Effect}

theorem exists_of_named (named : style.isNamed = true) (reserved : List String)
    (calls : List Call) : ∃ effects c, Calls style reserved calls effects c := by
  induction calls using List.reverseRecOn with
  | nil => exact ⟨[], {}, .start⟩
  | append_singleton calls call ih =>
      obtain ⟨effects, c, before⟩ := ih
      obtain ⟨effect, c', step⟩ := exists_step named reserved c call
      exact ⟨_, c', .call before step⟩

theorem unique (h : Calls style reserved calls effects c)
    (h' : Calls style reserved calls effects' c') : effects' = effects ∧ c' = c := by
  induction h generalizing effects' c' with
  | start =>
      generalize hcalls : ([] : List Call) = calls at h'
      cases h' with
      | start => exact ⟨rfl, rfl⟩
      | call => exact absurd hcalls.symm (List.concat_ne_nil _ _)
  | @call calls effects c₁ c₂ call effect before step ih =>
      generalize hcalls : calls ++ [call] = calls' at h'
      cases h' with
      | start => exact absurd hcalls (List.concat_ne_nil _ _)
      | call before' step' =>
          obtain ⟨rfl, last⟩ := List.append_inj' hcalls rfl
          cases last
          obtain ⟨rfl, rfl⟩ := ih before'
          obtain ⟨rfl, rfl⟩ := step.unique step'
          exact ⟨rfl, rfl⟩

theorem accounts (named : style.isNamed = true) (h : Calls style reserved calls effects c) :
    Accounts effects c := by
  induction h with
  | start => exact ⟨by simp, .inl rfl, by simp [Fields.keys], .nil⟩
  | call before step ih => exact ih.step named step

/-- Each number that was issued was the least one left at its time. -/
theorem isLeast (named : style.isNamed = true) (h : Calls style reserved calls effects c)
    {before after : List Effect} {passed : List Nat} {n : Nat}
    (place : effects = before ++ .issued passed n :: after) :
    IsLeast (Effect.Left reserved before) n := by
  induction h generalizing after with
  | start => simp at place
  | @call calls effects c₁ c₂ call effect earlier step ih =>
      obtain rfl | ⟨rest, last, rfl⟩ := List.eq_nil_or_concat' after
      · obtain ⟨rfl, last⟩ := List.append_inj' place rfl
        cases last
        cases step with
        | bind search bound => exact (earlier.accounts named).isLeast search
      · rw [← List.cons_append, ← List.append_assoc] at place
        exact ih (List.append_inj' place rfl).1

end Calls

/-- Every interleaving of calls to a collector in a named style comes to its end, in one way only.
Each bound value gets the placeholder of the least number that is greater than every number tried
before and whose name is neither reserved nor added by a fragment. So the issued numbers increase,
and no name is issued twice. -/
theorem issued_numbers_are_least (named : style.isNamed = true) (reserved : List String)
    (calls : List Call) :
    ∃ effects c, Calls style reserved calls effects c ∧
      (∀ effects' c', Calls style reserved calls effects' c' → effects' = effects ∧ c' = c) ∧
      (∀ before passed n after, effects = before ++ .issued passed n :: after →
        IsLeast (Effect.Left reserved before) n) ∧
      (effects.flatMap Effect.issuedNumbers).Pairwise (· < ·) ∧
      ((effects.flatMap Effect.issuedNumbers).map numberedName).Nodup := by
  obtain ⟨effects, c, run⟩ := Calls.exists_of_named named reserved calls
  have increasing := (run.accounts named).increasing
  refine ⟨effects, c, run, fun effects' c' => run.unique, fun _ _ _ _ => run.isLeast named,
    increasing, ?_⟩
  exact (increasing.imp Nat.ne_of_lt).map _ fun _ _ apart same => apart (numberedName_inj.mp same)

/-- Between the values two fragments bring names along, and the second one is refused at its last
name, which leaves its first one behind. -/
def claimingCalls : List Call :=
  [.bind (.int 1), .extend .condition (some (.map [(":p2", .none), ("p5", .none)])),
    .bind (.int 2), .extend .grouping (some (.map [("p6", .none), ("p2", .none)])),
    .bind (.int 3)]

theorem issued_numbers_are_least_of_refused :
    Style.named.isNamed = true ∧ ∃ c, Calls .named ["p2", "p3"] claimingCalls
        [.issued [] 1, .added ["p2", "p5"], .issued [2, 3] 4, .added ["p6"], .issued [5, 6] 7] c ∧
      IsLeast (Effect.Left ["p2", "p3"]
        [.issued [] 1, .added ["p2", "p5"], .issued [2, 3] 4, .added ["p6"]]) 7 := by
  obtain ⟨effects, c, run, unique, least, -, -⟩ :=
    @issued_numbers_are_least .named rfl ["p2", "p3"] claimingCalls
  let c₁ : Collector := { counter := 1, named := [(numberedName 1, .int 1)] }
  let c₂ : Collector := { c₁ with named := c₁.named ++ [("p2", .none), ("p5", .none)] }
  let c₃ : Collector := { counter := 4, named := c₂.named ++ [(numberedName 4, .int 2)] }
  let c₄ : Collector := { c₃ with named := c₃.named ++ [("p6", .none)] }
  have bound {c : Collector} {passed : List Nat} {n : Nat} (v : Value)
      (search : Search (["p2", "p3"] ++ Fields.keys c.named) c.counter passed n) :
      Step .named ["p2", "p3"] c (.bind v) (.issued passed n)
        { c with counter := n, named := c.named ++ [(numberedName n, v)] } :=
    .bind search (bind_of_search rfl search v)
  have first : Step .named ["p2", "p3"] {} claimingCalls[0] (.issued [] 1) c₁ :=
    bound _ (.stop (by decide +kernel))
  have second : Step .named ["p2", "p3"] c₁ claimingCalls[1] (.added ["p2", "p5"]) c₂ :=
    @Step.extend _ _ _ _ _ [("p2", .none), ("p5", .none)] rfl
  have third : Step .named ["p2", "p3"] c₂ claimingCalls[2] (.issued [2, 3] 4) c₃ :=
    bound _ (.pass (by decide +kernel) (.pass (by decide +kernel) (.stop (by decide +kernel))))
  have fourth : Step .named ["p2", "p3"] c₃ claimingCalls[3] (.added ["p6"]) c₄ :=
    @Step.extend _ _ _ _ _ [("p6", .none)] rfl
  have fifth : Step .named ["p2", "p3"] c₄ claimingCalls[4] (.issued [5, 6] 7) _ :=
    bound _ (.pass (by decide +kernel) (.pass (by decide +kernel) (.stop (by decide +kernel))))
  obtain ⟨rfl, rfl⟩ := unique _ _ (.call (.call (.call (.call (.call .start first) second) third)
    fourth) fifth)
  exact ⟨rfl, _, run, least [.issued [] 1, .added ["p2", "p5"], .issued [2, 3] 4, .added ["p6"]]
    [5, 6] 7 [] rfl⟩

end FluentSql.Collector
