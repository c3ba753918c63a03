import FluentSql.Proofs.Projections

/-!
Parentheses and quotes of projections. A text is a row of plain characters and of quotes, each of
which runs to the next mark of its kind. An accepted projection, and each of its expressions, leaves
no quote open and closes as many parentheses as it opens. That every parenthesis is closed after it
was opened is not checked; it holds of the whole when it holds of each expression.
-/

namespace FluentSql.Projection

open Scan (isQuote)

/-- What a text shows outside its quotes. -/
inductive Outside : List Char → List Char → Prop
  | nil : Outside [] []
  | plain {c : Char} {cs shown : List Char} (unquoted : isQuote c = false)
      (rest : Outside cs shown) : Outside (c :: cs) (c :: shown)
  | quoted {q : Char} {inside cs shown : List Char} (quote : isQuote q = true)
      (within : q ∉ inside) (rest : Outside cs shown) : Outside (q :: inside ++ q :: cs) shown

/-- As many parentheses are closed as are opened. -/
def EvenlyClosed (shown : List Char) : Prop := shown.count '(' = shown.count ')'

/-- No parenthesis is closed before it is opened. -/
def ClosedInTurn (shown : List Char) : Prop :=
  ∀ front back, shown = front ++ back → front.count ')' ≤ front.count '('

/-- Every quote is closed, and as many parentheses are closed as are opened. -/
def Balanced (cs : List Char) : Prop := ∃ shown, Outside cs shown ∧ EvenlyClosed shown

/-- A balanced text in which no parenthesis is closed before it is opened. -/
def WellNested (cs : List Char) : Prop :=
  ∃ shown, Outside cs shown ∧ EvenlyClosed shown ∧ ClosedInTurn shown

variable {a b cs shown shown' : List Char}

/-- A quote ends at the next mark of its kind. -/
theorem same_quote {q : Char} (within : q ∉ a) (within' : q ∉ b)
    (h : a ++ q :: shown = b ++ q :: shown') : a = b ∧ shown = shown' := by
  obtain ⟨_ | ⟨_, more⟩, longer, rest⟩ | ⟨_ | ⟨_, more⟩, longer, rest⟩ :=
    List.append_eq_append_iff.mp h
  · exact ⟨by simpa using longer.symm, by simpa using rest⟩
  · obtain ⟨rfl, -⟩ := List.cons.inj rest
    exact absurd (longer ▸ List.mem_append_right a List.mem_cons_self) within'
  · exact ⟨by simpa using longer, by simpa using rest.symm⟩
  · obtain ⟨rfl, -⟩ := List.cons.inj rest
    exact absurd (longer ▸ List.mem_append_right b List.mem_cons_self) within

theorem Outside.unique (h : Outside cs shown) (h' : Outside cs shown') : shown = shown' := by
  induction h generalizing shown' with
  | nil =>
      cases h'
      rfl
  | plain unquoted _ ih =>
      cases h' with
      | plain _ rest => rw [ih rest]
      | quoted quote =>
          rw [unquoted] at quote
          cases quote
  | @quoted q inside cs _ quote within _ ih =>
      generalize same : q :: inside ++ q :: cs = text at h'
      cases h' with
      | nil => cases same
      | plain unquoted =>
          cases same
          rw [quote] at unquoted
          cases unquoted
      | quoted _ within' rest =>
          rw [List.cons_append, List.cons_append] at same
          obtain ⟨rfl, same⟩ := List.cons.inj same
          obtain ⟨-, rfl⟩ := same_quote within within' same
          exact ih rest

theorem Outside.append (h : Outside a shown) (h' : Outside b shown') :
    Outside (a ++ b) (shown ++ shown') := by
  induction h with
  | nil => exact h'
  | plain unquoted _ ih => exact .plain unquoted ih
  | quoted quote within _ ih =>
      rw [List.append_assoc]
      exact .quoted quote within ih

theorem outside_plain (plain : ∀ c ∈ cs, isQuote c = false) : Outside cs cs := by
  induction cs with
  | nil => exact .nil
  | cons c cs ih =>
      obtain ⟨first, others⟩ := List.forall_mem_cons.mp plain
      exact .plain first (ih others)

theorem evenlyClosed_append (h : EvenlyClosed a) (h' : EvenlyClosed b) : EvenlyClosed (a ++ b) := by
  rw [EvenlyClosed, List.count_append, List.count_append, h, h']

theorem closedInTurn_append (even : EvenlyClosed a) :
    ClosedInTurn (a ++ b) ↔ ClosedInTurn a ∧ ClosedInTurn b := by
  constructor
  · intro h
    refine ⟨fun front back split => ?_, fun front back split => ?_⟩
    · exact h front (back ++ b) (by rw [split, List.append_assoc])
    · have longer := h (a ++ front) back (by rw [split, List.append_assoc])
      rw [List.count_append, List.count_append, even] at longer
      omega
  · rintro ⟨first, second⟩ front back split
    obtain ⟨more, rfl, rfl⟩ | ⟨more, rfl, rfl⟩ := List.append_eq_append_iff.mp split
    · have later := second more back rfl
      rw [List.count_append, List.count_append, even]
      omega
    · exact first front more rfl

theorem WellNested.balanced (h : WellNested cs) : Balanced cs :=
  h.imp fun _ ⟨outside, even, _⟩ => ⟨outside, even⟩

theorem Balanced.append (h : Balanced a) (h' : Balanced b) : Balanced (a ++ b) := by
  obtain ⟨shown, outside, even⟩ := h
  obtain ⟨shown', outside', even'⟩ := h'
  exact ⟨_, outside.append outside', evenlyClosed_append even even'⟩

/-- Balanced texts are well nested side by side when each of them is. -/
theorem wellNested_append (h : Balanced a) (h' : Balanced b) :
    WellNested (a ++ b) ↔ WellNested a ∧ WellNested b := by
  obtain ⟨shown, outside, even⟩ := h
  obtain ⟨shown', outside', even'⟩ := h'
  constructor
  · rintro ⟨whole, together, -, inTurn⟩
    obtain rfl := together.unique (outside.append outside')
    obtain ⟨first, second⟩ := (closedInTurn_append even).mp inTurn
    exact ⟨⟨shown, outside, even, first⟩, ⟨shown', outside', even', second⟩⟩
  · rintro ⟨⟨_, same, -, first⟩, ⟨_, same', -, second⟩⟩
    obtain rfl := outside.unique same
    obtain rfl := outside'.unique same'
    exact ⟨_, outside.append outside', evenlyClosed_append even even',
      (closedInTurn_append even).mpr ⟨first, second⟩⟩

/-- A text that holds neither quotes nor parentheses. -/
theorem wellNested_neutral
    (neutral : ∀ c ∈ cs, isQuote c = false ∧ c ≠ '(' ∧ c ≠ ')') : WellNested cs := by
  have none {front : List Char} (within : front ⊆ cs) {p : Char} (paren : p = '(' ∨ p = ')') :
      front.count p = 0 := by
    refine List.count_eq_zero.mpr fun found => ?_
    obtain ⟨-, opening, closing⟩ := neutral p (within found)
    exact paren.elim opening closing
  refine ⟨cs, outside_plain fun c hc => (neutral c hc).1, ?_, fun front back split => ?_⟩
  · rw [EvenlyClosed, none (List.Subset.refl cs) (.inl rfl), none (List.Subset.refl cs) (.inr rfl)]
  · rw [none (split ▸ List.subset_append_left front back) (.inr rfl)]
    exact Nat.zero_le _

theorem wellNested_blanks (blank : ∀ c ∈ cs, Text.isBlank c = true) : WellNested cs := by
  refine wellNested_neutral fun c hc => ⟨Scan.isQuote_not_blank (blank c hc), ?_, ?_⟩
  · rintro rfl
    cases blank _ hc
  · rintro rfl
    cases blank _ hc

theorem wellNested_comma : WellNested [','] :=
  wellNested_neutral fun c hc => by
    rw [List.mem_singleton.mp hc]
    decide

theorem wellNested_trimChars (h : Balanced (Text.trimChars cs)) :
    Balanced cs ∧ (WellNested cs ↔ WellNested (Text.trimChars cs)) := by
  obtain ⟨before, after, whole, front, back⟩ := Text.trimChars_between cs
  have first := wellNested_blanks front
  have last := wellNested_blanks back
  have start := first.balanced.append h
  rw [iff_iff_eq, congrArg WellNested whole, ← iff_iff_eq, congrArg Balanced whole]
  refine ⟨start.append last.balanced, ?_⟩
  rw [wellNested_append start last.balanced, wellNested_append first.balanced h]
  exact ⟨fun nested => nested.1.2, fun nested => ⟨⟨first, nested⟩, last⟩⟩

theorem wellNested_intercalate {texts : List (List Char)} (balanced : ∀ t ∈ texts, Balanced t) :
    Balanced ([','].intercalate texts) ∧
      (WellNested ([','].intercalate texts) ↔ ∀ t ∈ texts, WellNested t) := by
  induction texts with
  | nil =>
      have empty : WellNested [] := wellNested_neutral (List.forall_mem_nil _)
      exact ⟨empty.balanced, fun _ => List.forall_mem_nil _, fun _ => empty⟩
  | cons t texts ih =>
      obtain ⟨first, others⟩ := List.forall_mem_cons.mp balanced
      cases texts with
      | nil =>
          rw [show [','].intercalate [t] = t from List.append_nil t]
          exact ⟨first, by simp⟩
      | cons t' texts =>
          obtain ⟨later, nested⟩ := ih others
          have start := first.append wellNested_comma.balanced
          rw [List.intercalate_cons_cons]
          refine ⟨start.append later, ?_⟩
          rw [wellNested_append start later, wellNested_append first wellNested_comma.balanced,
            nested, List.forall_mem_cons (a := t), and_iff_left wellNested_comma]

theorem pieces_scan (s : Scan) (cs : List Char) : (pieces s cs).2 = cs.foldl Scan.step s := by
  induction cs generalizing s with
  | nil => rfl
  | cons c cs ih =>
      obtain ⟨rfl, rfl⟩ | ⟨first, rest, final, -, later, whole⟩ := pieces_cons_cases s c cs
      · exact ih {}
      · rw [whole, List.foldl_cons, ← ih, later]

theorem scan_quoted {q : Char} {inside : List Char} (within : q ∉ inside) (d : Int)
    (cs : List Char) :
    (inside ++ q :: cs).foldl Scan.step ⟨d, some q⟩ = cs.foldl Scan.step ⟨d, none⟩ := by
  induction inside with
  | nil => rw [List.nil_append, List.foldl_cons, Scan.step_open, if_pos rfl]
  | cons c inside ih =>
      obtain ⟨other, others⟩ := not_or.mp fun found => within (List.mem_cons.mpr found)
      rw [List.cons_append, List.foldl_cons, Scan.step_open, if_neg (Ne.symm other)]
      exact ih others

/-- A scan counts the parentheses that a text shows. -/
theorem scan_outside (h : Outside cs shown) (d : Int) :
    cs.foldl Scan.step ⟨d, none⟩ = ⟨d + shown.count '(' - shown.count ')', none⟩ := by
  induction h generalizing d with
  | nil => simp
  | @plain c cs shown unquoted _ ih =>
      rw [List.foldl_cons, Scan.step_plain unquoted, ih, List.count_cons, List.count_cons]
      congr 1
      simp only [beq_iff_eq]
      split <;> split <;> push_cast <;> omega
  | quoted quote within _ ih =>
      rw [List.cons_append, List.foldl_cons, Scan.step_quote quote, scan_quoted within]
      exact ih d

/-- A scan that ends outside quotes went over a text that closes its quotes; one that began inside
a quote went over the end of it first. -/
theorem exists_outside (s : Scan) (sound : s.IsSound) {d : Int}
    (h : cs.foldl Scan.step s = ⟨d, none⟩) :
    match s.quote with
    | none => ∃ shown, Outside cs shown
    | some q => ∃ inside rest shown, cs = inside ++ q :: rest ∧ q ∉ inside ∧
        Outside rest shown := by
  -- what is left of an open quote belongs to no text of its own, hence the second form
  induction cs generalizing s with
  | nil =>
      cases h
      exact ⟨[], .nil⟩
  | cons c cs ih =>
      have later := ih (s.step c) (Scan.isSound_step sound c) h
      obtain ⟨depth, quote⟩ := s
      cases quote with
      | none =>
          cases kind : isQuote c with
          | true =>
              rw [Scan.step_quote kind] at later
              obtain ⟨inside, rest, shown, rfl, within, outside⟩ := later
              exact ⟨shown, .quoted kind within outside⟩
          | false =>
              rw [Scan.step_plain kind] at later
              obtain ⟨shown, outside⟩ := later
              exact ⟨c :: shown, .plain kind outside⟩
      | some q =>
          rw [Scan.step_open] at later
          by_cases closes : c = q
          · subst closes
            rw [if_pos rfl] at later
            obtain ⟨shown, outside⟩ := later
            exact ⟨[], cs, shown, rfl, List.not_mem_nil, outside⟩
          · rw [if_neg closes] at later
            obtain ⟨inside, rest, shown, rfl, within, outside⟩ := later
            refine ⟨c :: inside, rest, shown, rfl, fun found => ?_, outside⟩
            exact (List.mem_cons.mp found).elim (fun same => closes same.symm) within

/-- A scan ends where it began over the balanced texts. -/
theorem scan_eq_start_iff : (pieces {} cs).2 = {} ↔ Balanced cs := by
  rw [pieces_scan]
  constructor
  · intro h
    obtain ⟨shown, outside⟩ := exists_outside {} Scan.isSound_start h
    refine ⟨shown, outside, ?_⟩
    have depth := congrArg Scan.depth ((scan_outside outside 0).symm.trans h)
    simp only at depth
    rw [EvenlyClosed]
    omega
  · rintro ⟨shown, outside, even⟩
    rw [show ({} : Scan) = ⟨0, none⟩ from rfl, scan_outside outside 0, even]
    simp

variable {given : String} {expressions : List String}

/-- An accepted projection is balanced and so are its expressions. It is well nested when every
expression is, which is not checked. -/
theorem accepted_projections_are_balanced (h : split (.text given) = .ok expressions) :
    Balanced given.toList ∧ (∀ e ∈ expressions, Balanced e.toList) ∧
      (WellNested given.toList ↔ ∀ e ∈ expressions, WellNested e.toList) := by
  have each : ∀ e ∈ expressions, Balanced e.toList := fun e he => by
    rw [← scan_eq_start_iff, pieces_expression h e he]
  obtain ⟨found, scanned, rfl, -⟩ := split_ok.mp h
  have trimmed : ∀ piece ∈ found, Balanced (Text.trimChars piece) := fun piece hpiece => by
    have balanced := each _ (List.mem_map_of_mem hpiece)
    rwa [String.toList_ofList] at balanced
  have pieces : ∀ piece ∈ found, Balanced piece := fun piece hpiece =>
    (wellNested_trimChars (trimmed piece hpiece)).1
  obtain ⟨whole, nested⟩ := wellNested_intercalate pieces
  have joined := pieces_join {} given.toList
  rw [scanned] at joined
  rw [joined] at whole nested
  refine ⟨whole, each, nested.trans ?_⟩
  simp only [List.forall_mem_map, String.toList_ofList]
  exact forall₂_congr fun piece hpiece => (wellNested_trimChars (trimmed piece hpiece)).2

/-- Parentheses inside a quote count for nothing. -/
theorem accepted_projections_are_balanced_of_quoted :
    split (.text "f(a, ')'), g((b))") = .ok ["f(a, ')')", "g((b))"] ∧
      Balanced "f(a, ')'), g((b))".toList ∧ Balanced "f(a, ')')".toList ∧
      (WellNested "f(a, ')'), g((b))".toList ↔
        WellNested "f(a, ')')".toList ∧ WellNested "g((b))".toList) := by
  have h : split (.text "f(a, ')'), g((b))") = .ok ["f(a, ')')", "g((b))"] :=
    toOption_some.mp (by decide +kernel)
  obtain ⟨whole, each, nested⟩ := accepted_projections_are_balanced h
  rw [List.forall_mem_cons, List.forall_mem_singleton] at nested
  exact ⟨h, whole, each _ List.mem_cons_self, nested⟩

/-- A parenthesis that is closed before it is opened is accepted. -/
theorem inverted_parentheses_are_accepted :
    split (.text ")(") = .ok [")("] ∧ ¬ WellNested ")(".toList := by
  refine ⟨toOption_some.mp (by decide +kernel), ?_⟩
  rintro ⟨shown, outside, -, inTurn⟩
  have plain : Outside [')', '('] [')', '('] := .plain rfl (.plain rfl .nil)
  obtain rfl : shown = [')', '('] := outside.unique plain
  exact absurd (inTurn [')'] ['('] rfl) (by decide)

end FluentSql.Projection
