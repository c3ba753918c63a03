import FluentSql.Projection
import FluentSql.Proofs.CanonicalReferences
import FluentSql.Proofs.Projections

/-!
Dangerous patterns and the texts they stand for. A pattern is a row of words with gaps between them,
so every text that it stands for begins and ends with a character that shows, and has no comma in
it. Therefore the search for it finds what is there, a text that is found stands on one side of any
comma, and blanks at the edges make no difference. Blanks and commas are the same in upper case.
-/

namespace FluentSql

namespace Projection

open Text (IsGap isBlank)

/-- The texts that the steps of a pattern stand for. -/
inductive Spells : List PatternStep → List Char → Prop
  | nil : Spells [] []
  | exactly {steps : List PatternStep} {text : List Char} (word : List Char)
      (rest : Spells steps text) : Spells (.exactly word :: steps) (word ++ text)
  | blanks {steps : List PatternStep} {gap text : List Char} (blank : IsGap gap)
      (rest : Spells steps text) : Spells (.blanks :: steps) (gap ++ text)
  | someBlanks {steps : List PatternStep} {gap text : List Char} (given : gap ≠ [])
      (blank : IsGap gap) (rest : Spells steps text) : Spells (.someBlanks :: steps) (gap ++ text)

/-- A text that the steps stand for is at the front of the characters. -/
def Begins (steps : List PatternStep) (cs : List Char) : Prop :=
  ∃ text, Spells steps text ∧ text <+: cs

/-- A text that the steps stand for is somewhere in the characters. -/
def Occurs (steps : List PatternStep) (cs : List Char) : Prop :=
  ∃ text, Spells steps text ∧ text <:+: cs

/-- Begins and ends with a character that shows, and holds no comma. -/
structure IsSolid (text : List Char) : Prop where
  first : ∃ c rest, text = c :: rest ∧ isBlank c = false
  last : ∃ front c, text = front ++ [c] ∧ isBlank c = false
  uncut : ',' ∉ text

/-- Words with gaps between them. -/
inductive Tight : List PatternStep → Prop
  | word {word : List Char} (solid : IsSolid word) : Tight [.exactly word]
  | blanks {word : List Char} {steps : List PatternStep} (solid : IsSolid word)
      (rest : Tight steps) : Tight (.exactly word :: .blanks :: steps)
  | someBlanks {word : List Char} {steps : List PatternStep} (solid : IsSolid word)
      (rest : Tight steps) : Tight (.exactly word :: .someBlanks :: steps)

variable {steps : List PatternStep} {text cs : List Char}

theorem comma_not_mem_gap {gap : List Char} (blank : IsGap gap) : ',' ∉ gap :=
  fun found => absurd (blank ',' found) (by decide)

theorem IsSolid.joined {word gap : List Char} (before : IsSolid word) (between : IsGap gap)
    (after : IsSolid text) : IsSolid (word ++ (gap ++ text)) := by
  obtain ⟨c, rest, rfl, first⟩ := before.first
  obtain ⟨front, d, rfl, last⟩ := after.last
  refine ⟨⟨c, rest ++ (gap ++ (front ++ [d])), rfl, first⟩,
    ⟨c :: rest ++ (gap ++ front), d, ?_, last⟩, ?_⟩
  · simp only [List.append_assoc]
  · intro found
    obtain inWord | later := List.mem_append.mp found
    · exact before.uncut inWord
    · obtain inGap | inText := List.mem_append.mp later
      · exact comma_not_mem_gap between inGap
      · exact after.uncut inText

theorem spells_single {word : List Char} (h : Spells [.exactly word] text) : text = word := by
  cases h with
  | exactly word rest =>
      cases rest
      exact List.append_nil word

theorem Tight.solid (tight : Tight steps) (h : Spells steps text) : IsSolid text := by
  induction tight generalizing text with
  | word solid => exact spells_single h ▸ solid
  | blanks solid _ ih =>
      cases h with
      | exactly word rest =>
          cases rest with
          | blanks between rest => exact solid.joined between (ih rest)
  | someBlanks solid _ ih =>
      cases h with
      | exactly word rest =>
          cases rest with
          | someBlanks _ between rest => exact solid.joined between (ih rest)

theorem dropStart?_iff {word rest : List Char} : dropStart? word cs = some rest ↔
    cs = word ++ rest := by
  induction word generalizing cs with
  | nil => rw [dropStart?, Option.some.injEq, List.nil_append]
  | cons c word ih =>
      cases cs with
      | nil => exact iff_of_false nofun nofun
      | cons d cs =>
          rw [dropStart?, List.cons_append, List.cons.injEq, ← ih]
          by_cases same : c = d
          · rw [if_pos same, and_iff_right same.symm]
          · rw [if_neg same]
            exact iff_of_false nofun fun h => same h.1.symm

theorem matchesAt_exactly {word : List Char} : matchesAt (.exactly word :: steps) cs = true ↔
    ∃ rest, cs = word ++ rest ∧ matchesAt steps rest = true := by
  simp only [matchesAt, ← dropStart?_iff]
  cases dropStart? word cs with
  | none => simp
  | some rest => simp

theorem begins_exactly {word : List Char} : Begins (.exactly word :: steps) cs ↔
    ∃ rest, cs = word ++ rest ∧ Begins steps rest := by
  constructor
  · rintro ⟨_, spelled, more, rfl⟩
    cases spelled with
    | exactly word rest => exact ⟨_, List.append_assoc .., _, rest, more, rfl⟩
  · rintro ⟨_, rfl, text, spelled, more, rfl⟩
    exact ⟨_, .exactly word spelled, more, List.append_assoc ..⟩

section

variable (tight : Tight steps)
include tight

/-- Behind a gap, the first character that shows is the first one of the next word. -/
theorem dropWhile_gap {gap more : List Char} (blank : IsGap gap) (spelled : Spells steps text) :
    (gap ++ text ++ more).dropWhile isBlank = text ++ more := by
  obtain ⟨c, rest, rfl, shown⟩ := (tight.solid spelled).first
  rw [List.append_assoc, List.dropWhile_append_of_pos blank, List.cons_append,
    List.dropWhile_cons_of_neg (Bool.eq_false_iff.mp shown)]

/-- Blanks can be skipped all at once: no shorter gap leaves a text of the further steps. -/
theorem begins_blanks : Begins (.blanks :: steps) cs ↔ Begins steps (cs.dropWhile isBlank) := by
  constructor
  · rintro ⟨_, spelled, more, rfl⟩
    cases spelled with
    | blanks blank rest =>
        rw [dropWhile_gap tight blank rest]
        exact ⟨_, rest, List.prefix_append _ more⟩
  · rintro ⟨text, spelled, more, whole⟩
    have blank : IsGap (cs.takeWhile isBlank) := fun c hc => List.mem_takeWhile_imp hc
    refine ⟨_, .blanks blank spelled, more, ?_⟩
    rw [List.append_assoc, whole, List.takeWhile_append_dropWhile]

theorem begins_someBlanks {c : Char} : Begins (.someBlanks :: steps) (c :: cs) ↔
    isBlank c = true ∧ Begins steps (cs.dropWhile isBlank) := by
  constructor
  · rintro ⟨_, spelled, more, whole⟩
    cases spelled with
    | someBlanks given blank rest =>
        obtain ⟨b, gap, rfl⟩ := List.exists_cons_of_ne_nil given
        obtain ⟨first, others⟩ := List.forall_mem_cons.mp blank
        rw [List.cons_append, List.cons_append] at whole
        obtain ⟨rfl, rfl⟩ := List.cons.inj whole
        rw [dropWhile_gap tight others rest]
        exact ⟨first, _, rest, List.prefix_append _ more⟩
  · rintro ⟨first, text, spelled, more, whole⟩
    have blank : IsGap (c :: cs.takeWhile isBlank) :=
      List.forall_mem_cons.mpr ⟨first, fun c hc => List.mem_takeWhile_imp hc⟩
    refine ⟨_, .someBlanks (List.cons_ne_nil _ _) blank spelled, more, ?_⟩
    rw [List.append_assoc, whole, List.cons_append, List.takeWhile_append_dropWhile]

end

theorem not_begins_someBlanks : ¬ Begins (.someBlanks :: steps) [] := by
  rintro ⟨_, spelled, front⟩
  cases spelled with
  | someBlanks given blank rest =>
      exact given (List.append_eq_nil_iff.mp (List.prefix_nil.mp front)).1

theorem Tight.matchesAt_iff (tight : Tight steps) : matchesAt steps cs = true ↔
    Begins steps cs := by
  induction tight generalizing cs with
  | word solid =>
      rw [matchesAt_exactly, begins_exactly]
      refine exists_congr fun rest => and_congr_right fun _ => ?_
      exact iff_of_true rfl ⟨[], .nil, List.nil_prefix⟩
  | blanks solid rest ih =>
      rw [matchesAt_exactly, begins_exactly]
      refine exists_congr fun cs => and_congr_right fun _ => ?_
      rw [matchesAt, begins_blanks rest, ih]
  | someBlanks solid rest ih =>
      rw [matchesAt_exactly, begins_exactly]
      refine exists_congr fun cs => and_congr_right fun _ => ?_
      cases cs with
      | nil => exact iff_of_false nofun not_begins_someBlanks
      | cons c cs => rw [matchesAt, Bool.and_eq_true, begins_someBlanks rest, ih]

theorem occurs_cons {c : Char} : Occurs steps (c :: cs) ↔ Begins steps (c :: cs) ∨
    Occurs steps cs := by
  simp only [Occurs, Begins, List.infix_cons_iff, and_or_left, exists_or]

theorem Tight.occursIn_iff (tight : Tight steps) : occursIn steps cs = true ↔ Occurs steps cs := by
  induction cs with
  | nil =>
      rw [occursIn, tight.matchesAt_iff]
      simp only [Begins, Occurs, List.prefix_nil, List.infix_nil]
  | cons c cs ih => rw [occursIn, Bool.or_eq_true, tight.matchesAt_iff, ih, occurs_cons]

namespace IsSolid

variable (solid : IsSolid text)
include solid

theorem infix_cons {c : Char} (other : isBlank c = true ∨ c = ',') :
    text <:+: c :: cs ↔ text <:+: cs := by
  refine List.infix_cons_iff.trans (or_iff_right ?_)
  intro front
  obtain ⟨d, rest, rfl, shown⟩ := solid.first
  obtain ⟨rfl, -⟩ := List.cons_prefix_cons.mp front
  obtain blank | rfl := other
  · rw [shown] at blank
    cases blank
  · exact solid.uncut List.mem_cons_self

theorem infix_concat {c : Char} (blank : isBlank c = true) :
    text <:+: cs ++ [c] ↔ text <:+: cs := by
  refine List.infix_concat_iff.trans (or_iff_right ?_)
  rintro ⟨before, whole⟩
  obtain ⟨front, d, rfl, shown⟩ := solid.last
  rw [← List.append_assoc] at whole
  obtain ⟨-, same⟩ := List.append_inj' whole rfl
  cases same
  rw [shown] at blank
  cases blank

theorem infix_after {gap : List Char} (blank : IsGap gap) :
    text <:+: gap ++ cs ↔ text <:+: cs := by
  induction gap with
  | nil => rw [List.nil_append]
  | cons c gap ih =>
      obtain ⟨first, others⟩ := List.forall_mem_cons.mp blank
      rw [List.cons_append, solid.infix_cons (.inl first), ih others]

theorem infix_before {gap : List Char} (blank : IsGap gap) :
    text <:+: cs ++ gap ↔ text <:+: cs := by
  induction gap using List.reverseRecOn with
  | nil => rw [List.append_nil]
  | append_singleton gap c ih =>
      obtain ⟨others, last⟩ := List.forall_mem_append.mp blank
      rw [← List.append_assoc, solid.infix_concat (last c (List.mem_singleton_self c)), ih others]

/-- A solid text stands on one side of a comma. -/
theorem infix_comma {before after : List Char} :
    text <:+: before ++ ',' :: after ↔ text <:+: before ∨ text <:+: after := by
  rw [List.infix_append_iff_ne_nil, solid.infix_cons (.inr rfl)]
  refine or_congr_right (or_iff_left ?_)
  rintro ⟨front, back, -, given, rfl, -, start⟩
  obtain rfl | ⟨rest, rfl, -⟩ := List.prefix_cons_iff.mp start
  · exact given rfl
  · exact solid.uncut (List.mem_append_right front List.mem_cons_self)

end IsSolid

section

variable (tight : Tight steps)
include tight

theorem occurs_comma {before after : List Char} :
    Occurs steps (before ++ ',' :: after) ↔ Occurs steps before ∨ Occurs steps after := by
  simp only [Occurs, ← exists_or, ← and_or_left]
  exact exists_congr fun text => and_congr_right fun spelled => (tight.solid spelled).infix_comma

theorem occurs_between {before after : List Char} (front : IsGap before) (back : IsGap after) :
    Occurs steps (before ++ cs ++ after) ↔ Occurs steps cs := by
  refine exists_congr fun text => and_congr_right fun spelled => ?_
  have solid := tight.solid spelled
  rw [solid.infix_before back, solid.infix_after front]

end

/-- A text without blanks and commas. -/
def isWord (word : List Char) : Bool := !word.isEmpty && word.all fun c => !isBlank c && c != ','

/-- Whether a pattern is made of words with gaps between them. -/
def isTight : List PatternStep → Bool
  | [.exactly word] => isWord word
  | .exactly word :: .blanks :: steps | .exactly word :: .someBlanks :: steps =>
    isWord word && isTight steps
  | _ => false

theorem isSolid_of_isWord {word : List Char} (h : isWord word = true) : IsSolid word := by
  obtain ⟨given, chars⟩ := Bool.and_eq_true_iff.mp h
  have some : word ≠ [] := by
    rintro rfl
    cases given
  have shown : ∀ c ∈ word, isBlank c = false ∧ c ≠ ',' := by simpa using chars
  obtain ⟨c, rest, start⟩ := List.exists_cons_of_ne_nil some
  obtain ⟨front, d, ending⟩ := (List.eq_nil_or_concat' word).resolve_left some
  refine ⟨⟨c, rest, start, (shown c ?_).1⟩, ⟨front, d, ending, (shown d ?_).1⟩,
    fun found => (shown _ found).2 rfl⟩
  · exact start ▸ List.mem_cons_self
  · exact ending ▸ List.mem_append_right front (List.mem_singleton_self d)

theorem tight_of_isTight (h : isTight steps = true) : Tight steps := by
  fun_induction isTight steps with
  | case1 word => exact .word (isSolid_of_isWord h)
  | case2 word steps ih =>
      obtain ⟨first, rest⟩ := Bool.and_eq_true_iff.mp h
      exact .blanks (isSolid_of_isWord first) (ih rest)
  | case3 word steps ih =>
      obtain ⟨first, rest⟩ := Bool.and_eq_true_iff.mp h
      exact .someBlanks (isSolid_of_isWord first) (ih rest)
  | case4 => cases h

theorem dangerousPatterns_tight : ∀ pattern ∈ dangerousPatterns, Tight pattern := by
  have all : dangerousPatterns.all isTight = true := by decide
  exact fun pattern found => tight_of_isTight (List.all_eq_true.mp all pattern found)

end Projection
end FluentSql
