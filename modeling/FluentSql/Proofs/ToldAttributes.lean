import FluentSql.Proofs.LogFields

/-!
What the object of a line tells by name. A name is the row of code points that a key is read as. A
key that is no text is written as a number or a word, and no name of a heading and no standard name
is one; so these names can be looked for among the names as they are read. If no two attributes have
names that are read alike, the heading is found under its own names and a further attribute under
any other one.
-/

namespace FluentSql

namespace Value

open Json

variable {τ : Type}

theorem text_or_other (key : Value τ) : (∃ s, key = .text s) ∨ ∀ s, key ≠ .text s := by
  cases key <;> simp

theorem not_sameKey_text [DecidableEq τ] {key : Value τ} (plain : key.isPlainKey = true)
    (other : ∀ s, key ≠ .text s) (name : τ) : key.sameKey (.text name) = false := by
  cases key with
  | text s => exact absurd rfl (other s)
  | none | bool | int => rfl
  | float x =>
      change (float x).sameNumber (.text name) = false
      simp [sameNumber, magnitude]
  | _ => cases plain

variable [Textual τ]

/-- A name in ASCII that no key has but the text itself. -/
def isTextName (name : String) : Bool :=
  name.toList.all isAscii && !(["null", "true", "false"].contains name) &&
    name.toList.head?.all fun c => !(Document.number []).opens c

theorem codes_lt_of_isTextName {name : String} (own : isTextName name = true) :
    ∀ n ∈ codesOf name, n < 0xd800 := by
  rw [isTextName, Bool.and_eq_true, Bool.and_eq_true] at own
  refine List.forall_mem_map.mpr fun c hc => ?_
  have ascii := List.all_eq_true.mp own.1.1 c hc
  simp only [isAscii, Bool.and_eq_true, decide_eq_true_eq] at ascii
  omega

/-- A plain key that is no text has the name of a number or a word for a name. -/
theorem keyName_of_not_text {key : Value τ} (plain : key.isPlainKey = true)
    (other : ∀ s, key ≠ .text s) :
    ∃ shown, key.keyName = codesOf shown ∧ isTextName shown = false := by
  have number {cs : List Char} (h : Numeral cs ∨ true = true ∧ cs ∈ nonFiniteWords) :
      isTextName (String.ofList cs) = false := by
    obtain ⟨c, rest, rfl, opens⟩ := (Spells.number h).head
    rw [isTextName, String.toList_ofList, List.head?_cons, Option.all_some,
      show (Document.number []).opens c = true from opens]
    exact Bool.and_false _
  cases key with
  | text s => exact absurd rfl (other s)
  | none => exact ⟨nullWord, joined_codesOf _, by decide⟩
  | bool b => exact ⟨boolWord b, joined_codesOf _, by cases b <;> decide⟩
  | int n =>
      refine ⟨toString n, ?_, ?_⟩
      · rw [keyName, keyCodes, Raised.textCodes,
          if_pos (show isWritable (.int n : Value τ) = true from plain)]
        exact joined_codesOf _
      · rw [← String.ofList_toList (s := toString n)]
        exact number (.inl (numeral_int n))
  | float x =>
      refine ⟨floatWord x, joined_codesOf _, ?_⟩
      rw [← String.ofList_toList (s := floatWord x)]
      obtain ⟨-, numeral⟩ | ⟨-, word⟩ := floatWord_cases τ x
      · exact number (.inl numeral)
      · exact number (.inr ⟨rfl, word⟩)
  | _ => cases plain

theorem keyName_ne_of_not_text {key : Value τ} (plain : key.isPlainKey = true)
    (other : ∀ s, key ≠ .text s) {name : String} (own : isTextName name = true) :
    key.keyName ≠ codesOf name := by
  obtain ⟨shown, named, not⟩ := keyName_of_not_text plain other
  intro same
  have strings : shown = name := Textual.codes_injective (named.symm.trans same)
  rw [strings, own] at not
  cases not

/-- The name of a text is an ASCII name only if the text is. -/
theorem keyName_text_iff (s : τ) {name : String} (own : isTextName name = true) :
    (Value.text s).keyName = codesOf name ↔ Textual.codes s = codesOf name := by
  refine ⟨fun same => eq_of_joined_eq same (codes_lt_of_isTextName own), fun same => ?_⟩
  rw [← joined_codesOf, ← same]
  rfl

theorem sameKey_ofString_eq [DecidableEq τ] {key : Value τ} (plain : key.isPlainKey = true)
    {name : String} (own : isTextName name = true) :
    key.sameKey (.ofString name) = decide (key.keyName = codesOf name) := by
  obtain ⟨s, rfl⟩ | other := text_or_other key
  · refine (sameKey_text s _).trans (decide_eq_decide.mpr ?_)
    rw [keyName_text_iff s own]
    exact ⟨fun same => same ▸ Textual.codes_ofString name, fun same =>
      Textual.codes_injective (same.trans (Textual.codes_ofString name).symm)⟩
  · rw [ofString, not_sameKey_text plain other,
      decide_eq_false (keyName_ne_of_not_text plain other own)]

end Value

namespace Log

open Value (isTextName keyName_ne_of_not_text keyName_text_iff text_or_other sameKey_ofString_eq)

variable {τ : Type} [Textual τ]

/-- The standard names as rows of code points. -/
def Entry.standard : List (List Nat) := standardNames.map codesOf

theorem isStandard_iff {key : Value τ} (plain : key.isPlainKey = true) :
    Entry.isStandard key = true ↔ key.keyName ∈ Entry.standard := by
  have own : ∀ name ∈ Entry.standardNames, isTextName name = true := by decide
  rw [Entry.standard, List.mem_map]
  obtain ⟨s, rfl⟩ | other := text_or_other key
  · rw [Entry.isStandard, Entry.standardName?, List.find?_isSome]
    refine exists_congr fun name => and_congr_right fun standard => ?_
    rw [beq_iff_eq, eq_comm, ← keyName_text_iff s (own name standard), eq_comm]
  · refine iff_of_false (fun standard => ?_) fun ⟨name, standard, same⟩ =>
      keyName_ne_of_not_text plain other (own name standard) same.symm
    cases key with
    | text s => exact other s rfl
    | _ => cases standard

/-- Entries with their keys as they are read. -/
def byName {α : Type} (entries : List (Value τ × α)) : List (List Nat × α) :=
  entries.map fun (key, x) => (key.keyName, x)

section

variable {α : Type} [DecidableEq τ]

theorem byName_insert {entries : List (Value τ × α)}
    (plain : ∀ a ∈ entries, a.1.isPlainKey = true) {name : String} (own : isTextName name = true)
    (x : α) : byName (Entries.insert entries (.ofString name) x) =
      Fields.insert (byName entries) (codesOf name) x := by
  have self : (Value.ofString name : Value τ).keyName = codesOf name :=
    (keyName_text_iff _ own).mpr (Textual.codes_ofString name)
  induction entries with
  | nil => exact congrArg (fun name => [(name, x)]) self
  | cons entry rest ih =>
      obtain ⟨key, y⟩ := entry
      obtain ⟨first, others⟩ := List.forall_mem_cons.mp plain
      have same := sameKey_ofString_eq first own
      by_cases here : key.keyName = codesOf name
      · simp [Entries.insert, same, here, byName, Fields.insert]
      · simpa [Entries.insert, same, here, byName, Fields.insert] using ih others

theorem byName_insertAll {entries : List (Value τ × α)}
    (plain : ∀ a ∈ entries, a.1.isPlainKey = true) {more : List (String × α)}
    (own : ∀ name ∈ Fields.keys more, isTextName name = true) :
    byName (Entries.insertAll entries (more.map fun (name, x) => (Textual.ofString name, x))) =
      Fields.insertAll (byName entries) (more.map fun (name, x) => (codesOf name, x)) := by
  induction more generalizing entries with
  | nil => rfl
  | cons field more ih =>
      obtain ⟨first, others⟩ := List.forall_mem_cons.mp own
      have kept : ∀ a ∈ Entries.insert entries (.ofString field.1) field.2,
          a.1.isPlainKey = true ∧ True :=
        Entries.forall_insert (P := fun key => key.isPlainKey = true) (Q := fun _ => True)
          (fun a ha => ⟨plain a ha, trivial⟩) rfl trivial
      have step := ih (fun a ha => (kept a ha).1) others
      rw [byName_insert plain first] at step
      exact step

end

/-- The document under a name in an object. -/
def said (members : List (List Nat × Json.Document)) (name : List Nat) : Option Json.Document :=
  Fields.get? name members

/-- The plain value that is read back under a name. -/
def readBack (members : List (List Nat × Json.Document)) (name : List Nat) : Option (Value τ) :=
  (said members name).bind Json.Document.plain?

/-- A value stands under a name in an object, and is read back if it is a plain one. -/
structure Holds (members : List (List Nat × Json.Document)) (name : List Nat) (v : Value τ) :
    Prop where
  document : said members name = some v.document
  value : v.isPlain = true → readBack members name = some v

theorem holds_of_said {members : List (List Nat × Json.Document)} {name : List Nat} {v : Value τ}
    (h : said members name = some v.document) : Holds members name v where
  document := h
  value plain := by rw [readBack, h, Option.bind_some, Value.plain?_document plain]

namespace Heading

/-- The names of a heading. -/
def strings (h : Heading τ) (span : Option SpanIds) : List String :=
  ["timestamp", "level", "logger", "message"] ++
    (if span.any SpanIds.isValid then ["trace_id", "span_id"] else []) ++
    if h.exception.isSome then ["exception"] else []

/-- The names of a heading as rows of code points. -/
def names (h : Heading τ) (span : Option SpanIds) : List (List Nat) := (h.strings span).map codesOf

/-- The fields of a heading under their names as rows of code points. -/
def named (h : Heading τ) (span : Option SpanIds) : List (List Nat × Content τ) :=
  (h.fields span).map fun (name, c) => (codesOf name, c)

theorem keys_fields (h : Heading τ) (span : Option SpanIds) :
    Fields.keys (h.fields span) = h.strings span := by
  obtain ⟨stamp, level, logger, message, exception⟩ := h
  cases span with
  | none => cases exception <;> rfl
  | some ids =>
      cases valid : ids.isValid <;> cases exception <;>
        simp [Fields.keys, fields, strings, SpanIds.fields, valid]

theorem keys_named (h : Heading τ) (span : Option SpanIds) :
    Fields.keys (h.named span) = h.names span := by
  rw [names, ← keys_fields, Fields.keys, named, Fields.keys, List.map_map, List.map_map]
  rfl

theorem mem_named {h : Heading τ} {span : Option SpanIds} {name : String} {c : Content τ}
    (own : (name, c) ∈ h.fields span) : (codesOf name, c) ∈ h.named span :=
  List.mem_map.mpr ⟨(name, c), own, rfl⟩

theorem distinct (h : Heading τ) (span : Option SpanIds) : (Fields.keys (h.named span)).Nodup := by
  rw [keys_named, names, strings]
  cases span.any SpanIds.isValid <;> cases h.exception.isSome <;> decide

omit [Textual τ] in
theorem isTextName_of_mem {h : Heading τ} {span : Option SpanIds} {name : String}
    (own : name ∈ h.strings span) : isTextName name = true := by
  have all : ∀ name ∈ ["timestamp", "level", "logger", "message"] ++ ["trace_id", "span_id"] ++
      ["exception"], isTextName name = true := by decide
  refine all name ?_
  rw [strings] at own
  revert own
  cases span.any SpanIds.isValid <;> cases h.exception.isSome <;> simp <;> tauto

end Heading

/-- The fields of a line by name, from attributes by name: the heading over the further attributes.
-/
def toldByName (attributes : List (List Nat × Value τ)) (h : Heading τ) (span : Option SpanIds) :
    List (List Nat × Content τ) :=
  Fields.insertAll ((attributes.filter fun (name, _) => !Entry.standard.contains name).map
    fun (name, v) => (name, .value v)) (h.named span)

section

variable {attributes : List (List Nat × Value τ)} {h : Heading τ} {span : Option SpanIds}

theorem nodup_toldByName (distinct : (Fields.keys attributes).Nodup) :
    (Fields.keys (toldByName attributes h span)).Nodup := by
  refine Fields.nodup_keys_insertAll ?_ (h.named span)
  rw [Fields.keys, List.map_map]
  exact distinct.sublist (List.filter_sublist.map _)

/-- Under its own names the heading is told. -/
theorem toldByName_own {name : String} {c : Content τ} (own : (name, c) ∈ h.fields span) :
    Fields.get? (codesOf name) (toldByName attributes h span) = some c := by
  rw [toldByName, Fields.get?_insertAll (h.distinct span),
    Fields.get?_of_mem (h.distinct span) (Heading.mem_named own)]
  rfl

/-- Under any other name a further attribute is told, if there is one. -/
theorem toldByName_other {name : List Nat} (free : name ∉ h.names span) :
    Fields.get? name (toldByName attributes h span) =
      if Entry.standard.contains name then none else (Fields.get? name attributes).map .value := by
  rw [← Heading.keys_named] at free
  rw [toldByName, Fields.get?_insertAll (h.distinct span), Fields.get?_eq_none free,
    Fields.get?_map, Fields.get?_filter fun name => !Entry.standard.contains name]
  cases Entry.standard.contains name <;> rfl

end

/-- What an object with members tells of an entry with attributes: its heading, and under no name of
the heading anything else; under other names the further attributes. Names are those that attributes
and members have as they are read. -/
structure Tells (attributes : List (List Nat × Value τ)) (h : Heading τ) (span : Option SpanIds)
    (members : List (List Nat × Json.Document)) : Prop where
  timestamp : Holds members (codesOf "timestamp") (.ofString h.stamp : Value τ)
  level : Holds members (codesOf "level") h.level
  logger : Holds members (codesOf "logger") h.logger
  message : said members (codesOf "message") = some (.text (Json.joined h.message))
  messageText : ∀ s : τ, h.message = Textual.codes s →
    Holds members (codesOf "message") (.text s)
  trace : ∀ ids ∈ span, ids.isValid = true →
    Holds members (codesOf "trace_id")
        (.ofString (String.ofList (Text.hexDigits 32 ids.trace)) : Value τ) ∧
      Holds members (codesOf "span_id")
        (.ofString (String.ofList (Text.hexDigits 16 ids.span)) : Value τ)
  exception : ∀ report ∈ h.exception, Holds members (codesOf "exception") (.text report)
  further : ∀ name v, Fields.get? name attributes = some v → name ∉ Entry.standard →
    name ∉ h.names span → Holds members name v
  nothingElse : ∀ name, said members name ≠ none →
    name ∈ h.names span ∨ name ∉ Entry.standard ∧ name ∈ Fields.keys attributes

namespace Entry

variable {e : Entry τ} {h : Heading τ} {span : Option SpanIds}

/-- The attributes of an entry with their names as they are read. -/
def byName (e : Entry τ) : List (List Nat × Value τ) := Log.byName e.attributes

section

variable [DecidableEq τ]

theorem told_byName (plain : ∀ a ∈ e.attributes, a.1.isPlainKey = true) :
    Log.byName (e.told h span) = toldByName e.byName h span := by
  -- Standard names are names of texts only, so keys can be told apart by what is read.
  have extra : e.extra = e.attributes.filter fun a => !standard.contains a.1.keyName := by
    refine List.filter_congr fun a ha => congrArg not ?_
    rw [Bool.eq_iff_iff, isStandard_iff (plain a ha), List.contains_iff_mem]
  have others : Log.byName e.further =
      (e.byName.filter fun (name, _) => !standard.contains name).map
        fun (name, v) => (name, .value v) := by
    rw [further, extra, byName, Log.byName, Log.byName, List.filter_map, List.map_map,
      List.map_map]
    rfl
  have own : ∀ name ∈ Fields.keys (h.fields span), isTextName name = true := fun name own =>
    Heading.isTextName_of_mem (Heading.keys_fields h span ▸ own)
  rw [told, byName_insertAll ?_ own, others]
  · rfl
  · intro a ha
    obtain ⟨b, hb, rfl⟩ := List.mem_map.mp ha
    exact plain b (List.mem_filter.mp hb).1

/-- A further attribute is told, unless the heading has its name. -/
theorem mem_told (plain : ∀ a ∈ e.attributes, a.1.isPlainKey = true) {name : List Nat}
    {v : Value τ} (given : Fields.get? name e.byName = some v) (kept : name ∉ standard)
    (free : name ∉ h.names span) : ∃ key, (key, .value v) ∈ e.told h span := by
  have found : Fields.get? name (toldByName e.byName h span) = some (.value v) := by
    rw [toldByName_other free, if_neg fun standard => kept (List.contains_iff_mem.mp standard),
      given]
    rfl
  rw [← told_byName plain] at found
  obtain ⟨⟨key, c⟩, told, same⟩ := List.mem_map.mp (Fields.mem_of_get? found)
  cases same
  exact ⟨key, told⟩

theorem document_eq (plain : ∀ a ∈ e.attributes, a.1.isPlainKey = true) :
    e.document h span =
      (toldByName e.byName h span).map fun (name, c) => (name, c.document) := by
  rw [document, ← told_byName plain, Log.byName, List.map_map]
  rfl

theorem said_document (plain : ∀ a ∈ e.attributes, a.1.isPlainKey = true) (name : List Nat) :
    said (e.document h span) name =
      (Fields.get? name (toldByName e.byName h span)).map Content.document := by
  rw [said, document_eq plain, Fields.get?_map]

theorem said_own (plain : ∀ a ∈ e.attributes, a.1.isPlainKey = true) {name : String}
    {c : Content τ} (own : (name, c) ∈ h.fields span) :
    said (e.document h span) (codesOf name) = some c.document := by
  rw [said_document plain, toldByName_own own]
  rfl

theorem said_other (plain : ∀ a ∈ e.attributes, a.1.isPlainKey = true) {name : List Nat}
    (free : name ∉ h.names span) : said (e.document h span) name =
      if standard.contains name then none
      else (Fields.get? name e.byName).map Value.document := by
  rw [said_document plain, toldByName_other free]
  cases standard.contains name <;> cases Fields.get? name e.byName <;> rfl

/-- If no two attributes have names that are read alike, no name is told twice. -/
theorem nodup_document (plain : ∀ a ∈ e.attributes, a.1.isPlainKey = true)
    (distinct : (Fields.keys e.byName).Nodup) : ((e.document h span).map Prod.fst).Nodup := by
  rw [document_eq plain, List.map_map]
  exact nodup_toldByName distinct

/-- The document of an entry tells of the entry's attributes and its heading. -/
theorem tells (plain : ∀ a ∈ e.attributes, a.1.isPlainKey = true) :
    Tells e.byName h span (e.document h span) where
  timestamp := holds_of_said (said_own plain (.head _))
  level := holds_of_said (said_own plain (.tail _ (.head _)))
  logger := holds_of_said (said_own plain (.tail _ (.tail _ (.head _))))
  message := said_own plain (.tail _ (.tail _ (.tail _ (.head _))))
  messageText s same := by
    refine holds_of_said ((said_own plain (.tail _ (.tail _ (.tail _ (.head _))))).trans ?_)
    rw [Content.document, same]
    rfl
  trace ids here valid := by
    obtain rfl := Option.mem_def.mp here
    have member {name : String} {v : Value τ} (given : (name, v) ∈ ids.fields) :
        Holds (e.document h (some ids)) (codesOf name) v := by
      have told : (name, .value v) ∈ h.fields (some ids) :=
        List.mem_append_left _ (List.mem_append_right _ (List.mem_map.mpr ⟨(name, v), given, rfl⟩))
      exact holds_of_said (said_own plain told)
    rw [SpanIds.fields, if_pos valid] at member
    exact ⟨member (.head _), member (.tail _ (.head _))⟩
  exception report carried :=
    holds_of_said (said_own plain (List.mem_append_right _
      (List.mem_map_of_mem (Option.mem_toList.mpr carried))))
  further name v given kept free := by
    refine holds_of_said ?_
    rw [said_other plain free, given,
      if_neg fun standard => kept (List.contains_iff_mem.mp standard)]
    rfl
  nothingElse name present := by
    by_cases own : name ∈ h.names span
    · exact .inl own
    · rw [said_other plain own] at present
      refine .inr ⟨fun standard => present (if_pos (List.contains_iff_mem.mpr standard)), ?_⟩
      by_contra absent
      rw [Fields.get?_eq_none absent] at present
      exact present (by split <;> rfl)

end

/-- Names without halves of a character side by side are never read alike. -/
theorem HasAttributes.nodup_byName {attributes : List (τ × Value τ)}
    (known : e.HasAttributes attributes) (whole : ∀ name ∈ Fields.keys attributes,
      Json.joined (Textual.codes name) = Textual.codes name) :
    (Fields.keys e.byName).Nodup := by
  have names : Fields.keys e.byName = (Fields.keys attributes).map Textual.codes := by
    rw [Fields.keys, byName, known.named, Log.byName, Entries.named, List.map_map, List.map_map,
      Fields.keys, List.map_map]
    exact List.map_congr_left fun field hm => whole field.1 (List.mem_map_of_mem hm)
  rw [names]
  exact List.pairwise_map.mpr (known.distinct.imp fun apart same =>
    apart (Textual.codes_injective same))

/-- Attributes that are set by such names, one after the other, are told apart. -/
theorem nodup_byName_of_setAll [DecidableEq τ] {logger message created : Value τ} {level : String}
    {arguments : List (Value τ)} {exception : Option Raised} {more : List (τ × Value τ)}
    (each : Textual.ofString "__dict__" ∉ Fields.keys more)
    (whole : ∀ name ∈ Fields.keys more,
      Json.joined (Textual.codes name) = Textual.codes name)
    (made : (make logger level message arguments created exception).setAll more = .ok e) :
    (Fields.keys e.byName).Nodup := by
  obtain ⟨attributes, known⟩ :=
    HasAttributes.make logger level message arguments created exception
  refine (known.setAll each made).nodup_byName fun name hm => ?_
  obtain own | given := Fields.mem_keys_insertAll name hm
  · rw [Fields.keys, List.map_map] at own
    obtain ⟨field, -, rfl⟩ := List.mem_map.mp own
    rw [Function.comp, Textual.codes_ofString, Json.joined_codesOf]
  · exact whole name given

end Entry
end Log
end FluentSql
