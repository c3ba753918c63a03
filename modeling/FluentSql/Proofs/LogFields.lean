import FluentSql.Proofs.FilledTemplates
import FluentSql.Proofs.NamedFields
import FluentSql.Proofs.ValueDocuments

/-!
The fields of a log line. What a line says of an entry apart from its further attributes is its
heading; the line is written from the further attributes with the heading put over them. Attributes
that are set one after the other have texts for names, no two the same.
-/

namespace FluentSql

namespace Log

variable {τ : Type}

/-- What a field of a line is written from: a value, or code points. -/
inductive Content (τ : Type) where
  | value (v : Value τ)
  | codes (ns : List Nat)

namespace Content

def encodable : Content τ → Bool
  | value v => v.encodable
  | codes _ => true

def isFinite : Content τ → Bool
  | value v => v.isFinite
  | codes _ => true

/-- Code points are numbers that are. -/
def IsSound : Content τ → Prop
  | value _ => True
  | codes ns => AreCodes ns

variable [Textual τ]

def write : Content τ → Except Raised (List Char)
  | value v => Json.write v
  | codes ns => .ok (Json.writeCodes ns)

def document : Content τ → Json.Document
  | value v => v.document
  | codes ns => .text (Json.joined ns)

theorem isOk_write (c : Content τ) : c.write.isOk = c.encodable := by
  cases c with
  | value v => exact Json.isOk_write v
  | codes ns => rfl

theorem written {lenient : Bool} {c : Content τ} (sound : c.IsSound)
    (finite : lenient = true ∨ c.isFinite = true) {cs : List Char} (h : c.write = .ok cs) :
    Json.Written lenient (.one (.item c.document)) cs := by
  cases c with
  | value v => exact Json.written_write v h finite
  | codes ns =>
      cases h
      exact .codes sound

theorem isFinite_of_spells {c : Content τ} {cs : List Char}
    (h : Json.Spells false (.one (.item c.document)) cs) : c.isFinite = true := by
  cases c with
  | value v => exact Json.isFinite_of_spells v h
  | codes ns => rfl

end Content

variable [Textual τ]

/-- A span is named by strings. -/
theorem SpanIds.ofString_of_fields {span : Option SpanIds} {name : String} {v : Value τ}
    (h : (name, v) ∈ span.elim [] SpanIds.fields) : ∃ s, v = .ofString s := by
  cases span with
  | none => cases h
  | some ids =>
      rw [Option.elim, fields] at h
      split at h
      · obtain ⟨-, rfl⟩ | h := by simpa using h
        · exact ⟨_, rfl⟩
        · exact ⟨_, h.2⟩
      · cases h

/-- What a line says of an entry under its own names. -/
structure Heading (τ : Type) where
  stamp : String
  level : Value τ
  logger : Value τ
  message : List Nat
  exception : Option τ

/-- The fields of a heading in their order. -/
def Heading.fields (h : Heading τ) (span : Option SpanIds) : List (String × Content τ) :=
  [("timestamp", .value (.ofString h.stamp)), ("level", .value h.level),
    ("logger", .value h.logger), ("message", .codes h.message)] ++
  ((span.elim [] SpanIds.fields).map fun (name, v) => (name, .value v)) ++
  h.exception.toList.map fun s => ("exception", .value (.text s))

theorem nodup_ofString {α : Type} {fields : List (String × α)} (h : (Fields.keys fields).Nodup) :
    (Fields.keys (fields.map fun (name, x) => ((Textual.ofString name : τ), x))).Nodup := by
  have names : Fields.keys (fields.map fun (name, x) => ((Textual.ofString name : τ), x)) =
      (Fields.keys fields).map Textual.ofString := by
    rw [Fields.keys, Fields.keys, List.map_map, List.map_map]
    rfl
  rw [names]
  exact List.pairwise_map.mpr (h.imp fun apart same => apart (Textual.ofString_injective same))

namespace Entry

/-- The attributes of an entry have texts for names, no two the same. -/
structure HasAttributes (e : Entry τ) (attributes : List (τ × Value τ)) : Prop where
  named : e.attributes = Entries.named attributes
  distinct : (Fields.keys attributes).Nodup

/-- An entry is made with attributes whose names are strings. -/
theorem HasAttributes.make (logger : Value τ) (level : String) (message : Value τ)
    (arguments : List (Value τ)) (created : Value τ) (exception : Option Raised) :
    ∃ attributes : List (String × Value τ),
      (Entry.make logger level message arguments created exception).HasAttributes
        (attributes.map fun (name, v) => (Textual.ofString name, v)) := by
  cases exception with
  | none =>
      exact ⟨[("name", logger), ("msg", message), ("args", argumentsOf arguments),
        ("levelname", .ofString level), ("created", created), (exceptionName, .none)], rfl,
        nodup_ofString (by simp [Fields.keys, exceptionName])⟩
  | some raised =>
      exact ⟨[("name", logger), ("msg", message), ("args", argumentsOf arguments),
        ("levelname", .ofString level), ("created", created)], rfl,
        nodup_ofString (by simp [Fields.keys])⟩

variable [DecidableEq τ]

def heading (e : Entry τ) : Except Raised (Heading τ) := do
  let created ← Timestamp.ofValue (← e.need "created")
  let stamp ← created.write
  let level ← e.need "levelname"
  let logger ← e.need "name"
  let message ← e.message
  let exception ← e.exceptionText
  .ok { stamp, level, logger, message, exception }

/-- A heading is made of what the entry is asked for, all of which has to be there. -/
theorem heading_ok_iff {e : Entry τ} {h : Heading τ} : e.heading = .ok h ↔
    (∃ v t, e.need "created" = .ok v ∧ Timestamp.ofValue v = .ok t ∧ t.write = .ok h.stamp) ∧
      e.need "levelname" = .ok h.level ∧ e.need "name" = .ok h.logger ∧
      e.message = .ok h.message ∧ e.exceptionText = .ok h.exception := by
  constructor
  · intro known
    obtain ⟨v, hv, known⟩ := ok_bind_iff.mp known
    obtain ⟨t, ht, known⟩ := ok_bind_iff.mp known
    obtain ⟨stamp, hstamp, known⟩ := ok_bind_iff.mp known
    obtain ⟨level, hlevel, known⟩ := ok_bind_iff.mp known
    obtain ⟨logger, hlogger, known⟩ := ok_bind_iff.mp known
    obtain ⟨message, hmessage, known⟩ := ok_bind_iff.mp known
    obtain ⟨exception, hexception, known⟩ := ok_bind_iff.mp known
    cases known
    exact ⟨⟨v, t, hv, ht, hstamp⟩, hlevel, hlogger, hmessage, hexception⟩
  · rintro ⟨⟨v, t, hv, ht, hstamp⟩, hlevel, hlogger, hmessage, hexception⟩
    exact ok_bind_iff.mpr ⟨v, hv, ok_bind_iff.mpr ⟨t, ht, ok_bind_iff.mpr ⟨_, hstamp,
      ok_bind_iff.mpr ⟨_, hlevel, ok_bind_iff.mpr ⟨_, hlogger, ok_bind_iff.mpr ⟨_, hmessage,
        ok_bind_iff.mpr ⟨_, hexception, rfl⟩⟩⟩⟩⟩⟩⟩

/-- What an entry is asked for is one of its attributes. -/
theorem mem_of_need {e : Entry τ} {name : String} {v : Value τ} (h : e.need name = .ok v) :
    ∃ key, (key, v) ∈ e.attributes := by
  rw [need] at h
  split at h
  · next present =>
      cases h
      obtain ⟨known, found, rfl⟩ := Option.map_eq_some_iff.mp present
      exact ⟨known.1, List.mem_of_find?_eq_some found⟩
  · cases h

/-- The fields of the further attributes. -/
def further (e : Entry τ) : List (Value τ × Content τ) :=
  e.extra.map fun (name, v) => (name, .value v)

/-- The fields of the line under a heading. -/
def told (e : Entry τ) (h : Heading τ) (span : Option SpanIds) : List (Value τ × Content τ) :=
  Entries.insertAll e.further
    ((h.fields span).map fun (name, c) => (Textual.ofString name, c))

/-- The document of the line under a heading. -/
def document (e : Entry τ) (h : Heading τ) (span : Option SpanIds) :
    List (List Nat × Json.Document) :=
  (e.told h span).map fun (key, c) => (key.keyName, c.document)

/-- The fields of a line are what is told, each as it is written. -/
theorem fields_eq (e : Entry τ) (h : Heading τ) (span : Option SpanIds) :
    e.fields h.stamp h.level h.logger h.message
      (span.elim [] SpanIds.fields ++ h.exception.toList.map fun s => ("exception", .text s)) =
      (e.told h span).map fun (key, c) => (key, c.write) := by
  have own : [("timestamp", .ok (Json.writeText h.stamp)), ("level", Json.write h.level),
      ("logger", Json.write h.logger), ("message", .ok (Json.writeCodes h.message))] ++
      (span.elim [] SpanIds.fields ++
        h.exception.toList.map fun s => ("exception", (.text s : Value τ))).map
        (fun (field : String × Value τ) => (field.1, Json.write field.2)) =
      (h.fields span).map fun (name, c) => (name, c.write) := by
    have stamp : Json.write (.ofString h.stamp : Value τ) = .ok (Json.writeText h.stamp) := by
      rw [Value.ofString, Json.write, Textual.codes_ofString]
      rfl
    simp [Heading.fields, Content.write, stamp, Function.comp_def]
  have extra : (e.extra.map fun (name, v) => (name, Json.write v)) =
      e.further.map fun (key, c) => (key, c.write) := by
    rw [further, List.map_map]
    rfl
  rw [told, ← Entries.insertAll_map, ← extra, List.map_map, fields, own, Entries.insertAll,
    List.foldl_map, List.foldl_map]
  rfl

theorem line_eq (e : Entry τ) (span : Option SpanIds) : e.line span = (do
    let h ← e.heading
    .ok (String.ofList
      (← Json.writeObject ((e.told h span).map fun (key, c) => (key, c.write))))) := by
  simp only [line, lineAt, heading, bind_assoc, ← fields_eq]
  rfl

namespace HasAttributes

variable {e : Entry τ} {attributes : List (τ × Value τ)}

theorem put (h : e.HasAttributes attributes) (name : τ) (v : Value τ) :
    (e.put name v).HasAttributes (Fields.insert attributes name v) where
  named := by rw [Entry.put, h.named, Entries.insert_named]
  distinct := Fields.nodup_keys_insert h.distinct name v

theorem set {e' : Entry τ} (h : e.HasAttributes attributes) {name : τ} {v : Value τ}
    (one : name ≠ Textual.ofString "__dict__") (made : e.set name v = .ok e') :
    e'.HasAttributes (Fields.insert attributes name v) := by
  simp only [Entry.set, if_neg one] at made
  split at made
  · cases made
  · split at made
    · cases made
    · cases made
      exact h.put name v

theorem setAll {e' : Entry τ} (h : e.HasAttributes attributes) {more : List (τ × Value τ)}
    (each : Textual.ofString "__dict__" ∉ Fields.keys more) (made : e.setAll more = .ok e') :
    e'.HasAttributes (Fields.insertAll attributes more) := by
  induction more generalizing e attributes with
  | nil =>
      cases made
      exact h
  | cons field more ih =>
      obtain ⟨name, v⟩ := field
      obtain ⟨one, each⟩ := not_or.mp fun known => each (List.mem_cons.mpr known)
      obtain ⟨next, hnext, made⟩ := ok_bind_iff.mp (show _ >>= _ = _ from made)
      exact ih (h.set (Ne.symm one) hnext) each made

end HasAttributes
end Entry
end Log
end FluentSql
