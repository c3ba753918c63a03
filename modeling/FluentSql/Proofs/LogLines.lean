import FluentSql.Proofs.ToldAttributes

/-!
Log lines. Whatever an entry is made of, its line is one object in printable ASCII, which tells the
entry's heading and its further attributes by name. Two things come out otherwise than they went in:
two halves of a character next to each other in a text are read as the character, and attributes
can have names that are read alike, by way of such halves or because a name is no text. An entry has
no line if one of its fields cannot be written, and a line beyond the strict grammar if a number in
a field is not finite.
-/

namespace FluentSql.Log.Entry

variable {τ : Type} [Textual τ] [DecidableEq τ] {e : Entry τ}

/-- The fields of a line are attributes of the entry, and texts and the message under texts. -/
theorem forall_told {P : Value τ → Prop} {Q : Content τ → Prop} {h : Heading τ}
    (known : e.heading = .ok h) (span : Option SpanIds)
    (attributes : ∀ a ∈ e.attributes, P a.1 ∧ Q (.value a.2)) (names : ∀ s, P (.text s))
    (texts : ∀ s, Q (.value (.text s)))
    (message : e.message = .ok h.message → Q (.codes h.message)) :
    ∀ field ∈ e.told h span, P field.1 ∧ Q field.2 := by
  obtain ⟨-, hlevel, hlogger, hmessage, -⟩ := heading_ok_iff.mp known
  refine Entries.forall_insertAll (fun field extra => ?_) fun named hm => ⟨names named.1, ?_⟩
  · obtain ⟨a, ha, rfl⟩ := List.mem_map.mp extra
    exact attributes a (List.mem_filter.mp ha).1
  · obtain ⟨field, own, rfl⟩ := List.mem_map.mp hm
    change Q field.2
    simp only [Heading.fields, List.mem_append, List.mem_cons, List.not_mem_nil, or_false,
      List.mem_map] at own
    obtain ((rfl | rfl | rfl | rfl) | ⟨⟨name, v⟩, given, rfl⟩) | ⟨report, -, rfl⟩ := own
    · exact texts _
    · obtain ⟨key, hm⟩ := mem_of_need hlevel
      exact (attributes _ hm).2
    · obtain ⟨key, hm⟩ := mem_of_need hlogger
      exact (attributes _ hm).2
    · exact message hmessage
    · obtain ⟨s, rfl⟩ := SpanIds.ofString_of_fields given
      exact texts _
    · exact texts report

theorem isSound_of_told {h : Heading τ} (known : e.heading = .ok h) {span : Option SpanIds} :
    ∀ field ∈ e.told h span, field.2.IsSound := fun field told =>
  (forall_told (P := fun _ => True) known span (fun _ _ => ⟨trivial, trivial⟩) (fun _ => trivial)
    (fun _ => trivial) areCodes_message field told).2

/-- An entry has a line when it has a heading and every field of the line can be written. -/
theorem isOk_line {h : Heading τ} (known : e.heading = .ok h) (span : Option SpanIds) :
    (e.line span).isOk =
      (e.told h span).all fun field => field.1.isPlainKey && field.2.encodable := by
  rw [line_eq, known]
  refine (isOk_bind_ok _ _).trans ?_
  rw [Json.isOk_writeObject, List.all_map]
  congr 1
  funext field
  rw [Function.comp, Content.isOk_write]

/-- The line of an entry denotes its document, in printable ASCII. -/
theorem written_line {span : Option SpanIds} {line : String} (made : e.line span = .ok line) :
    ∃ h, e.heading = .ok h ∧ ∀ lenient,
      (lenient = true ∨ ∀ field ∈ e.told h span, field.2.isFinite = true) →
        Json.Written lenient (.one (.item (.object (e.document h span)))) line.toList := by
  rw [line_eq] at made
  obtain ⟨h, known, made⟩ := ok_bind_iff.mp made
  obtain ⟨cs, hcs, made⟩ := ok_bind_iff.mp made
  cases made
  refine ⟨h, known, fun lenient finite => ?_⟩
  rw [String.toList_ofList]
  exact Json.written_writeObject (fun field told cs hcs => Content.written
    (isSound_of_told known field told) (finite.imp_right fun all => all field told) hcs) hcs

theorem encodable_of_line {span : Option SpanIds} {line : String} {h : Heading τ}
    (known : e.heading = .ok h) (made : e.line span = .ok line) :
    ∀ field ∈ e.told h span, field.1.isPlainKey = true ∧ field.2.encodable = true := by
  have ok := isOk_line known span
  rw [made] at ok
  exact fun field told => Bool.and_eq_true_iff.mp (List.all_eq_true.mp ok.symm field told)

/-- An entry with a line has plain names. -/
theorem plain_of_line {span : Option SpanIds} {line : String} (made : e.line span = .ok line) :
    ∀ a ∈ e.attributes, a.1.isPlainKey = true := by
  obtain ⟨h, known, -⟩ := written_line made
  intro a ha
  cases standard : isStandard a.1 with
  | true =>
      obtain ⟨key, v⟩ := a
      cases key with
      | text s => rfl
      | _ => cases standard
  | false =>
      -- Its value may give way to the heading's, but its key stays where it is.
      have extra : (a.1, Content.value a.2) ∈ e.further :=
        List.mem_map.mpr ⟨a, List.mem_filter.mpr ⟨ha, congrArg not standard⟩, rfl⟩
      have told : a.1 ∈ (e.told h span).map Prod.fst :=
        (Entries.prefix_keys_insertAll _ _).subset (List.mem_map_of_mem extra)
      obtain ⟨field, hfield, same⟩ := List.mem_map.mp told
      exact same ▸ (encodable_of_line known made field hfield).1

/-- The line of an entry denotes its document and no other. -/
theorem denotes_line {span : Option SpanIds} {line : String} {h : Heading τ}
    (known : e.heading = .ok h) (made : e.line span = .ok line) (d : Json.Document) :
    Json.Denotes true line d ↔ d = .object (e.document h span) := by
  obtain ⟨h', known', written⟩ := written_line made
  obtain rfl := Except.ok.inj (known.symm.trans known')
  have denotes := (written true (.inl rfl)).denotes
  exact ⟨fun other => other.unique denotes, fun same => same ▸ denotes⟩

/-- The strict grammar takes a line exactly when all numbers in it are finite. -/
theorem strict_line_iff {span : Option SpanIds} {line : String} {h : Heading τ}
    (known : e.heading = .ok h) (made : e.line span = .ok line) :
    (∃ d, Json.Denotes false line d) ↔ ∀ field ∈ e.told h span, field.2.isFinite = true := by
  constructor
  · rintro ⟨d, strict⟩ field told
    -- A strict document is a lenient one too, so it can only be the one that was written.
    obtain rfl := (denotes_line known made d).mp strict.to_lenient
    obtain ⟨_, cs, _, -, -, -, spelled⟩ := strict
    cases spelled with
    | object inner =>
        obtain ⟨_, item⟩ := Json.items_of_members inner
          (field.1.keyName, field.2.document) (List.mem_map.mpr ⟨field, told, rfl⟩)
        exact Content.isFinite_of_spells item
  · intro finite
    obtain ⟨h', known', written⟩ := written_line made
    obtain rfl := Except.ok.inj (known.symm.trans known')
    exact ⟨_, (written false (.inr finite)).denotes⟩

/-- No entry can make its line say anything else, of whatever type its texts are: the line is one
object in printable ASCII, and if no two attributes have names that are read alike, the object has
no name twice and tells the entry's own heading and further attributes. -/
theorem lines_tell_their_entries {span : Option SpanIds} {line : String}
    (made : e.line span = .ok line) :
    (∀ c ∈ line.toList, 32 ≤ c.toNat ∧ c.toNat ≤ 126) ∧
      ∃ h members, e.heading = .ok h ∧
        (∀ d, Json.Denotes true line d ↔ d = .object members) ∧
        ((∀ field ∈ e.told h span, field.2.isFinite = true) →
          Json.Denotes false line (.object members)) ∧
        ((Fields.keys e.byName).Nodup →
          (members.map Prod.fst).Nodup ∧ Tells e.byName h span members) := by
  obtain ⟨h, known, written⟩ := written_line made
  have plain := plain_of_line made
  refine ⟨fun c hc => ?_, h, e.document h span, known, denotes_line known made,
    fun finite => (written false (.inr finite)).denotes,
    fun distinct => ⟨nodup_document plain distinct, tells plain⟩⟩
  have ascii := List.all_eq_true.mp (written true (.inl rfl)).ascii c hc
  simpa only [Json.isAscii, Bool.and_eq_true, decide_eq_true_eq] using ascii

/-- Attributes under names of the heading, and half of a character in a text. -/
def impostor : Entry (List CodePoint) :=
  (make (.ofString "app") "INFO" (.ofString "%s\n") [.ofString "\"x\""]).putAll
    [(Textual.ofString "timestamp", .ofString "2099"),
      (Textual.ofString "note", .text (Textual.ofCodes [0xd83d, 10])),
      (Textual.ofString "span_id", .int 7)]

theorem lines_tell_their_entries_of_impostor : ∃ line h members,
    impostor.line (some ⟨1, 2⟩) = .ok line ∧ impostor.heading = .ok h ∧
      (∀ d, Json.Denotes true line d ↔ d = .object members) ∧ (members.map Prod.fst).Nodup ∧
      Tells impostor.byName h (some ⟨1, 2⟩) members := by
  have made : impostor.line (some ⟨1, 2⟩) =
      .ok ("\x7b\"timestamp\": \"1970-01-01T00:00:00+00:00\", \"note\": \"\\ud83d\\n\", " ++
        "\"span_id\": \"0000000000000002\", \"level\": \"INFO\", \"logger\": \"app\", " ++
        "\"message\": \"\\\"x\\\"\\n\", " ++
        "\"trace_id\": \"00000000000000000000000000000001\"\x7d") := by
    decide +kernel
  obtain ⟨-, h, members, known, denotes, -, tells⟩ := lines_tell_their_entries made
  exact ⟨_, h, members, made, known, denotes, tells (by decide +kernel)⟩

/-- A message of two halves of a character. -/
def halves : Entry := make (.text "app") "INFO" (.text "%c%c") [.int 0xd83d, .int 0xde00]

/-- Two attributes whose names are written alike. -/
def twins : Entry where
  attributes := [(.int 1, .text "a"), (.text "1", .text "b"), (.text "created", .int 0),
    (.text "levelname", .text "INFO"), (.text "name", .text "app"), (.text "msg", .text "m"),
    (.text "args", .tuple []), (.text exceptionName, .none)]

/-- Halves of a character in the logger, in a text and in a name, and a name that is the character.
-/
def halved : Entry (List CodePoint) :=
  (make (.text (Textual.ofCodes [0xd83d, 0xde00])) "INFO" (.ofString "m")).putAll
    [(Textual.ofString "note", .text (Textual.ofCodes [0xd83d, 0xde00])),
      (Textual.ofCodes [0xd83d, 0xde00], .int 1), (Textual.ofCodes [0x1f600], .int 2)]

/-- Names that are read alike at the front of the attributes stand twice in the object. -/
theorem not_nodup_document {h : Heading τ} {span : Option SpanIds} (front : List (Value τ))
    (first : front <+: e.further.map Prod.fst) (alike : ¬(front.map Value.keyName).Nodup) :
    ¬((e.document h span).map Prod.fst).Nodup := by
  intro distinct
  have names : (e.document h span).map Prod.fst =
      ((e.told h span).map Prod.fst).map Value.keyName := by
    rw [document, List.map_map, List.map_map]
    rfl
  rw [names] at distinct
  exact alike (distinct.sublist
    ((first.trans (Entries.prefix_keys_insertAll e.further _)).map _).sublist)

/-- Halves of a character are read back as the character, in whatever text, and names that are not
texts or hold such halves can be read alike. -/
theorem halves_join_and_names_meet :
    (∃ line h members, halves.line none = .ok line ∧ halves.heading = .ok h ∧
      h.message = [0xd83d, 0xde00] ∧ (∀ d, Json.Denotes true line d ↔ d = .object members) ∧
      said members (codesOf "message") = some (.text [0x1f600])) ∧
    (∃ line members, twins.line none = .ok line ∧
      (∀ d, Json.Denotes true line d ↔ d = .object members) ∧ ¬(members.map Prod.fst).Nodup) ∧
    ∃ line h members, halved.line none = .ok line ∧ halved.heading = .ok h ∧
      h.logger = .text (Textual.ofCodes [0xd83d, 0xde00]) ∧
      (∀ d, Json.Denotes true line d ↔ d = .object members) ∧
      said members (codesOf "logger") = some (.text [0x1f600]) ∧
      said members (codesOf "note") = some (.text [0x1f600]) ∧ ¬(members.map Prod.fst).Nodup := by
  refine ⟨?_, ?_, ?_⟩
  · have made : halves.line none = .ok ("\x7b\"timestamp\": \"1970-01-01T00:00:00+00:00\", " ++
        "\"level\": \"INFO\", \"logger\": \"app\", \"message\": \"\\ud83d\\ude00\"\x7d") := by
      decide +kernel
    obtain ⟨h, known, -⟩ := written_line made
    have message : h.message = [0xd83d, 0xde00] := by
      have filled : halves.message = .ok [0xd83d, 0xde00] := by decide +kernel
      exact Except.ok.inj ((heading_ok_iff.mp known).2.2.2.1.symm.trans filled)
    refine ⟨_, h, _, made, known, message, denotes_line known made, ?_⟩
    rw [(tells (plain_of_line made)).message, message]
    rfl
  · have made : twins.line none = .ok ("\x7b\"1\": \"a\", \"1\": \"b\", " ++
        "\"timestamp\": \"1970-01-01T00:00:00+00:00\", \"level\": \"INFO\", " ++
        "\"logger\": \"app\", \"message\": \"m\"\x7d") := by
      decide +kernel
    obtain ⟨h, known, -⟩ := written_line made
    exact ⟨_, _, made, denotes_line known made,
      not_nodup_document [.int 1, .text "1"] List.prefix_rfl (by decide +kernel)⟩
  · have made : halved.line none = .ok ("\x7b\"note\": \"\\ud83d\\ude00\", " ++
        "\"\\ud83d\\ude00\": 1, \"\\ud83d\\ude00\": 2, " ++
        "\"timestamp\": \"1970-01-01T00:00:00+00:00\", \"level\": \"INFO\", " ++
        "\"logger\": \"\\ud83d\\ude00\", \"message\": \"m\"\x7d") := by
      decide +kernel
    obtain ⟨h, known, -⟩ := written_line made
    have logger : h.logger = .text (Textual.ofCodes [0xd83d, 0xde00]) := by
      have given : halved.need "name" = .ok (.text (Textual.ofCodes [0xd83d, 0xde00])) := rfl
      exact Except.ok.inj ((heading_ok_iff.mp known).2.2.1.symm.trans given)
    have plain := plain_of_line made
    have free : codesOf "note" ∉ h.names none := by
      rw [Heading.names, Heading.strings]
      cases h.exception.isSome <;> decide
    refine ⟨_, h, _, made, known, logger, denotes_line known made, ?_, ?_,
      not_nodup_document [.ofString "note", .text (Textual.ofCodes [0xd83d, 0xde00]),
        .text (Textual.ofCodes [0x1f600])] List.prefix_rfl (by decide +kernel)⟩
    · rw [(tells plain).logger.document, logger]
      rfl
    · rw [said_other plain free]
      rfl

theorem line_iff (e : Entry τ) (span : Option SpanIds) :
    (∃ line, e.line span = .ok line) ↔ ∃ h, e.heading = .ok h ∧ ∀ field ∈ e.told h span,
      field.1.isPlainKey = true ∧ field.2.encodable = true := by
  constructor
  · rintro ⟨line, made⟩
    obtain ⟨h, known, -⟩ := written_line made
    exact ⟨h, known, encodable_of_line known made⟩
  · rintro ⟨h, known, writable⟩
    have ok := isOk_line known span
    rw [List.all_eq_true.mpr fun field told => Bool.and_eq_true_iff.mpr (writable field told)] at ok
    cases made : e.line span with
    | ok line => exact ⟨line, rfl⟩
    | error raised =>
        rw [made] at ok
        cases ok

/-- An entry that has a heading, plain keys and values that can be written and are finite has a line
of the strict grammar. -/
theorem strict_line_of_attributes {h : Heading τ} (known : e.heading = .ok h)
    (span : Option SpanIds) (each : ∀ a ∈ e.attributes,
      a.1.isPlainKey = true ∧ a.2.encodable = true ∧ a.2.isFinite = true) :
    ∃ line, e.line span = .ok line ∧ ∃ d, Json.Denotes false line d := by
  have told := forall_told (P := fun key => key.isPlainKey = true)
    (Q := fun c => c.encodable = true ∧ c.isFinite = true) known span each (fun _ => rfl)
    (fun _ => ⟨rfl, rfl⟩) fun _ => ⟨rfl, rfl⟩
  obtain ⟨line, made⟩ := (line_iff e span).mpr
    ⟨h, known, fun field hm => ⟨(told field hm).1, (told field hm).2.1⟩⟩
  exact ⟨line, made, (strict_line_iff known made).mpr fun field hm => (told field hm).2.2⟩

/-- An entry has a line exactly when it has a heading and every field can be written, and the line
is one of the strict grammar exactly when every number in a field is finite. -/
theorem lines_and_the_grammar (e : Entry τ) (span : Option SpanIds) :
    ((∃ line, e.line span = .ok line) ↔ ∃ h, e.heading = .ok h ∧ ∀ field ∈ e.told h span,
      field.1.isPlainKey = true ∧ field.2.encodable = true) ∧
    ∀ h line, e.heading = .ok h → e.line span = .ok line →
      (∀ d, Json.Denotes true line d ↔ d = .object (e.document h span)) ∧
      ((∃ d, Json.Denotes false line d) ↔ ∀ field ∈ e.told h span, field.2.isFinite = true) :=
  ⟨line_iff e span, fun _ _ known made => ⟨denotes_line known made, strict_line_iff known made⟩⟩

/-- An entry with one further attribute. -/
def entryWith (v : Value) : Entry := (make (.text "app") "INFO" (.text "m")).put "v" v

/-- Bytes, and keys that are no texts. -/
def formless : Entry :=
  entryWith (.map [(.none, .bytes [97]), (.float .nan, .list [.bool true])])

theorem lines_and_the_grammar_of_formless : ∃ h line, formless.heading = .ok h ∧
    formless.line none = .ok line ∧
    (∀ d, Json.Denotes true line d ↔ d = .object (formless.document h none)) ∧
    (∃ d, Json.Denotes false line d) ∧
    ∀ field ∈ formless.told h none, field.1.isPlainKey = true ∧ field.2.encodable = true := by
  have made : formless.line none = .ok ("\x7b\"v\": \x7b\"null\": \"b'a'\", " ++
      "\"NaN\": [true]\x7d, \"timestamp\": \"1970-01-01T00:00:00+00:00\", \"level\": \"INFO\", " ++
      "\"logger\": \"app\", \"message\": \"m\"\x7d") := by decide +kernel
  obtain ⟨written, grammar⟩ := lines_and_the_grammar formless none
  obtain ⟨h, known, encodable⟩ := written.mp ⟨_, made⟩
  obtain ⟨denotes, strict⟩ := grammar h _ known made
  have finite : ∀ a ∈ formless.attributes, True ∧ a.2.isFinite = true := by decide +kernel
  have told := forall_told (P := fun _ => True) (Q := fun c => c.isFinite = true) known none finite
    (fun _ => trivial) (fun _ => rfl) fun _ => rfl
  exact ⟨h, _, known, made, denotes, strict.mpr fun field hm => (told field hm).2, encodable⟩

/-- A key that is no plain one and a number of too many digits leave no line, and what is no number
leaves one beyond the strict grammar, although the message is the same. -/
theorem odd_values_break_lines :
    (∀ v, (entryWith v).message = .ok (codesOf "m")) ∧
    (entryWith (.map [(.tuple [.int 1, .int 2], .text "x")])).line none =
      .error (.typeError "keys must be str, int, float, bool or None, not tuple") ∧
    (entryWith (.ofNat (Nat.pow 10 4300))).line none = .error Raised.tooManyDigits ∧
    ∃ line, (entryWith (.float .nan)).line none = .ok line ∧ ¬∃ d, Json.Denotes false line d := by
  have made : (entryWith (.float .nan)).line none = .ok ("\x7b\"v\": NaN, " ++
      "\"timestamp\": \"1970-01-01T00:00:00+00:00\", \"level\": \"INFO\", " ++
      "\"logger\": \"app\", \"message\": \"m\"\x7d") := by decide +kernel
  refine ⟨fun v => rfl, by decide +kernel, by decide +kernel, _, made, fun strict => ?_⟩
  obtain ⟨h, known, -⟩ := written_line made
  have free : codesOf "v" ∉ h.names none := by
    rw [Heading.names, Heading.strings]
    cases h.exception.isSome <;> decide
  have given : Fields.get? (codesOf "v") (entryWith (.float .nan)).byName =
      some (.float .nan) := rfl
  obtain ⟨key, told⟩ := mem_told (plain_of_line made) given (by decide) free
  cases (strict_line_iff known made).mp strict _ told

end FluentSql.Log.Entry
