import FluentSql.Connection
import FluentSql.Proofs.Outcome

/-!
Addresses that no engine can be made for. An exception on the way to a new engine comes from the
reading of the address, from the arguments that are put into it, or from the making itself. An error
of the database layer, of types or of imports is reported as a connection failure with the exception
as its cause. Nothing else is: a complaint about a value, as the reading of an address raises it for
a number that is none, reaches the caller as it was raised.
-/

namespace FluentSql

namespace Url

/-- The text between the colon after the host and what follows, where the number of an address
stands, if the address names a driver and has such a colon. -/
def numberText? (s : String) : Option (List Char) := do
  let (_, rest) ← splitDriver? s.toList
  (splitPart ':' (fun c => c == '/' || c == '?') (splitHost (splitUser rest).2.2).2).1

theorem parsePort_error {cs : List Char} {e : Raised} (h : parsePort cs = .error e) :
    e.kind = "ValueError" := by
  simp only [parsePort] at h
  split at h
  · cases h
  · cases h
    rfl

/-- An address is refused if it names no driver, or for its number. -/
theorem parse_error_iff {s : String} {e : Raised} :
    parse s = .error e ↔
      splitDriver? s.toList = none ∧
          e = unreadable "Could not parse SQLAlchemy URL from given URL string" ∨
        ∃ digits, numberText? s = some digits ∧ parsePort digits = .error e := by
  cases split : splitDriver? s.toList with
  | none =>
      simp [parse, numberText?, split, eq_comm]
  | some parts =>
      obtain ⟨driver, rest⟩ := parts
      simp only [parse, numberText?, split, bind, Option.bind]
      cases (splitPart ':' (fun c => c == '/' || c == '?')
          (splitHost (splitUser rest).2.2).2).1 with
      | none => simp [Except.bind]
      | some digits => cases parsed : parsePort digits <;> simp [parsed, Except.bind, Except.map]

end Url

namespace Connection

variable (c : Connection) (a : Arguments) (read : AddressReader)

/-- No address is given, and the settings have none. -/
def NoAddress : Prop :=
  a.dsn.truthy = false ∧ (c.settings.dsn = none ∨ c.settings.dsn = some "")

/-- The address that is given, or else that of the settings. -/
def address : Value := orElse a.dsn (Value.ofText? c.settings.dsn)

def username : Value := orElse a.username (Value.ofText? c.settings.username)

def password : Value := if a.password.isNone then Value.ofText? c.settings.password else a.password

/-- An exception on the way to a new engine, and the backend as far as it is known by then. The
address is read, user and password are put into it, the options are gathered, and an engine is made.
-/
inductive Obstacle : Option String → Raised → Prop
  | address {e : Raised} (unread : read (c.address a) = .error e) : Obstacle none e
  | credentials {e : Raised} {url : Url} (given : read (c.address a) = .ok url)
      (refused : withCredentials url (c.username a) (c.password a) = .error e) :
      Obstacle (some url.backend) e
  | options {e : Raised} {url named : Url} (given : read (c.address a) = .ok url)
      (taken : withCredentials url (c.username a) (c.password a) = .ok named)
      (refused : engineOptions c.settings url.backend a.options = .error e) :
      Obstacle (some url.backend) e
  | making {e : Raised} {url named : Url} {options : List (String × Value)}
      (given : read (c.address a) = .ok url)
      (taken : withCredentials url (c.username a) (c.password a) = .ok named)
      (gathered : engineOptions c.settings url.backend a.options = .ok options)
      (failed : (nextMaking c.makings).1 = .failed e) :
      Obstacle (some named.backend) e

/-- The report that no engine could be made. -/
structure Reports (backend : Option String) (e : Raised) (f : Failure) : Prop where
  code : f.code = .connection
  message : f.message =
    "Failed to create engine for " ++ (backend.filter (!·.isEmpty)).getD "database"
  cause : f.cause = some e

variable {c a read}

theorem truthy_ofText? (s : Option String) :
    (Value.ofText? s).truthy = false ↔ s = none ∨ s = some "" := by
  cases s with
  | none => simp [Value.ofText?, Value.truthy]
  | some s => simp [Value.ofText?, Value.truthy]

theorem noAddress_iff : c.NoAddress a ↔ (c.address a).truthy = false := by
  rw [NoAddress, address, orElse, ← truthy_ofText?]
  cases truthy : a.dsn.truthy <;> simp [truthy]

theorem connect_noAddress (missing : c.NoAddress a) :
    (c.connect a read).2.outcome = .error notConfigured := by
  rw [noAddress_iff, address] at missing
  simp only [connect, missing]
  rfl

/-- What stands in the way before an engine is made ends the preparations, and nothing else does. -/
theorem plan_cases (c : Connection) (a : Arguments) (read : AddressReader) :
    (∃ backend e, c.Obstacle a read backend e ∧
        plan c.settings a (c.address a) read = .error (backend, e)) ∨
      ∃ url named options, read (c.address a) = .ok url ∧
        withCredentials url (c.username a) (c.password a) = .ok named ∧
        engineOptions c.settings url.backend a.options = .ok options ∧
        plan c.settings a (c.address a) read = .ok (named, options) := by
  cases given : read (c.address a) with
  | error e => exact .inl ⟨none, e, .address given, by simp only [plan, given]⟩
  | ok url =>
      cases taken : withCredentials url (c.username a) (c.password a) with
      | error e =>
          refine .inl ⟨_, e, .credentials given taken, ?_⟩
          rw [username, password] at taken
          simp only [plan, given, taken]
          rfl
      | ok named =>
          cases gathered : engineOptions c.settings url.backend a.options with
          | error e =>
              refine .inl ⟨_, e, .options given taken gathered, ?_⟩
              rw [username, password] at taken
              simp only [plan, given, taken, gathered]
              rfl
          | ok options =>
              refine .inr ⟨url, named, options, rfl, taken, gathered, ?_⟩
              rw [username, password] at taken
              simp only [plan, given, taken, gathered]
              rfl

theorem make_outcome (c : Connection) (url : Url) (options : List (String × Value)) :
    (c.make url options).2.outcome =
      match (nextMaking c.makings).1 with
      | .failed e => .error (makingError (some url.backend) e)
      | .made _ => .ok (c.made + 1) := by
  simp only [make]
  cases (nextMaking c.makings).1 with
  | failed e => rfl
  | made replies => rfl

theorem connect_unplanned (present : ¬ c.NoAddress a) {backend : Option String} {e : Raised}
    (planned : plan c.settings a (c.address a) read = .error (backend, e)) :
    (c.connect a read).2.outcome = .error (makingError backend e) := by
  rw [noAddress_iff, Bool.not_eq_false, address] at present
  rw [address] at planned
  simp only [connect, present, planned]
  rfl

theorem connect_planned (present : ¬ c.NoAddress a) {url : Url} {options : List (String × Value)}
    (planned : plan c.settings a (c.address a) read = .ok (url, options)) :
    (c.connect a read).2.outcome = (c.make url options).2.outcome := by
  rw [noAddress_iff, Bool.not_eq_false, address] at present
  rw [address] at planned
  simp only [connect, present, planned]
  rfl

/-- An attempt on an address fails as the obstacle that is in its way says, or there is none. -/
theorem connect_cases (present : ¬ c.NoAddress a) (read : AddressReader) :
    (∃ backend e, c.Obstacle a read backend e ∧
        (c.connect a read).2.outcome = .error (makingError backend e)) ∨
      (∀ backend e, ¬ c.Obstacle a read backend e) ∧
        (c.connect a read).2.outcome = .ok (c.made + 1) := by
  obtain ⟨backend, e, obstacle, planned⟩ | ⟨url, named, options, given, taken, gathered, planned⟩ :=
    c.plan_cases a read
  · exact .inl ⟨backend, e, obstacle, connect_unplanned present planned⟩
  · have connected := connect_planned present planned
    cases making : (nextMaking c.makings).1 with
    | failed e =>
        refine .inl ⟨_, e, .making given taken gathered making, ?_⟩
        simp only [connected, make_outcome, making]
    | made replies =>
        refine .inr ⟨?_, by simp only [connected, make_outcome, making]⟩
        intro backend e obstacle
        cases obstacle <;> simp_all

/-- There is one obstacle at most. -/
theorem Obstacle.unique {backend backend' : Option String} {e e' : Raised}
    (h : c.Obstacle a read backend e) (h' : c.Obstacle a read backend' e') :
    backend = backend' ∧ e = e' := by
  cases h <;> cases h' <;> simp_all

/-- The exceptions that are reported: those of the database layer, of types and of imports, with all
the narrower kinds of each. -/
def IsReported (e : Raised) : Prop :=
  e.isDatabaseError = true ∨ e.kind.isA "TypeError" = true ∨ e.kind.isA "ImportError" = true

theorem isMakingFailure_iff {e : Raised} : isMakingFailure e = true ↔ IsReported e := by
  simp [isMakingFailure, IsReported, or_assoc]

theorem makingError_reported {e : Raised} (reported : IsReported e) (backend : Option String) :
    ∃ f, makingError backend e = .failure f ∧ Reports backend e f := by
  rw [makingError, if_pos (isMakingFailure_iff.mpr reported)]
  exact ⟨_, rfl, rfl, rfl, rfl⟩

theorem makingError_unreported {e : Raised} (unreported : ¬ IsReported e)
    (backend : Option String) : makingError backend e = e.toError := by
  rw [makingError, if_neg (mt isMakingFailure_iff.mp unreported)]

theorem makingError_valueError {e : Raised} (value : e.kind = "ValueError")
    (backend : Option String) : makingError backend e = .raised e := by
  have unreported : ¬ IsReported e := by
    rw [IsReported, Raised.isDatabaseError, value]
    decide
  rw [makingError_unreported unreported, Raised.toError, Raised.name, value]
  rfl

/-- What becomes of an address that no engine can be made for. Without an address the connection is
not configured. With one, an attempt fails exactly when something stands in its way. An error of the
database layer, of types or of imports that does is reported as a connection failure with the error
as its cause; a complaint about a value passes through as it was raised. The engine on demand is
attempted in the same way. A text that is read as an address gives errors of both kinds: the first
if it names no driver, the second exactly for what stands in the place of a number and is none. -/
theorem unusable_addresses (c : Connection) (a : Arguments) (read : AddressReader) :
    (c.NoAddress a → ∃ f, (c.connect a read).2.outcome = .error (.failure f) ∧
        f.code = .connectionNotConfigured) ∧
      (¬ c.NoAddress a →
        ((∃ error, (c.connect a read).2.outcome = .error error) ↔
          ∃ backend e, c.Obstacle a read backend e) ∧
        ∀ backend e, c.Obstacle a read backend e →
          (IsReported e → ∃ f, (c.connect a read).2.outcome = .error (.failure f) ∧
            Reports backend e f) ∧
          (¬ IsReported e → (c.connect a read).2.outcome = .error e.toError) ∧
          (e.kind = "ValueError" → (c.connect a read).2.outcome = .error (.raised e))) ∧
      (c.engine = none → (c.get read).2 = (c.connect {} read).2) ∧
      ∀ s e, Url.ofValue (.text s) = .error e ↔
        (Url.splitDriver? s.toList = none ∧
          e = Url.unreadable "Could not parse SQLAlchemy URL from given URL string") ∨
        ∃ digits, Url.numberText? s = some digits ∧ Url.parsePort digits = .error e ∧
          e.kind = "ValueError" := by
  refine ⟨fun missing => ⟨_, connect_noAddress missing, rfl⟩, fun present => ?_, ?_, ?_⟩
  · obtain ⟨backend, e, obstacle, failed⟩ | ⟨free, made⟩ :=
      connect_cases present read
    · refine ⟨⟨fun _ => ⟨backend, e, obstacle⟩, fun _ => ⟨_, failed⟩⟩, ?_⟩
      intro backend' e' obstacle'
      obtain ⟨rfl, rfl⟩ := obstacle.unique obstacle'
      refine ⟨fun reported => ?_, fun unreported => ?_, fun value => ?_⟩
      · obtain ⟨f, made, reports⟩ := makingError_reported reported backend
        exact ⟨f, by rw [failed, made], reports⟩
      · rw [failed, makingError_unreported unreported]
      · rw [failed, makingError_valueError value]
    · refine ⟨⟨fun ⟨error, failed⟩ => ?_, fun ⟨backend, e, obstacle⟩ =>
        absurd obstacle (free backend e)⟩, fun backend e obstacle =>
        absurd obstacle (free backend e)⟩
      rw [made] at failed
      cases failed
  · intro none
    simp only [get, none]
  · intro s e
    refine Url.parse_error_iff.trans (or_congr_right (exists_congr fun digits => ?_))
    exact and_congr_right fun _ => ⟨fun failed => ⟨failed, Url.parsePort_error failed⟩, And.left⟩

/-- A connection without an address in its settings, on which no engine can be made since a driver
is not there. -/
def broken : Connection where
  settings := {
    dsn := none
    username := none
    password := none
    connectOptions := []
    poolSize := 5
    maxOverflow := 10
    poolTimeout := 30
    echo := false
    hideParameters := true }
  makings := [.failed ⟨"ModuleNotFoundError", "no driver", false⟩]

theorem unusable_addresses_of_broken :
    (∃ f, (broken.connect {}).2.outcome = .error (.failure f) ∧
        f.code = .connectionNotConfigured) ∧
      (∃ f, (broken.connect { dsn := .text "pg://h/db" }).2.outcome = .error (.failure f) ∧
        Reports (some "pg") ⟨"ModuleNotFoundError", "no driver", false⟩ f) ∧
      (broken.connect { dsn := .text "pg://h:abc/db" }).2.outcome =
        .error (.raised (.valueError "invalid literal for int() with base 10: 'abc'")) := by
  have absent : broken.NoAddress {} := ⟨rfl, .inl rfl⟩
  have present {s : String} (written : s ≠ "") : ¬ broken.NoAddress { dsn := .text s } := by
    rintro ⟨empty, -⟩
    simp [Value.truthy, written] at empty
  have given : Url.ofValue (.text "pg://h/db") =
      .ok { driver := "pg", host := some "h", database := some "db" } := rfl
  have unread : Url.ofValue (.text "pg://h:abc/db") =
      .error (.valueError "invalid literal for int() with base 10: 'abc'") := rfl
  obtain ⟨unconfigured, -⟩ := unusable_addresses broken {} Url.ofValue
  obtain ⟨-, unmade, -⟩ := unusable_addresses broken { dsn := .text "pg://h/db" } Url.ofValue
  obtain ⟨-, misread, -⟩ := unusable_addresses broken { dsn := .text "pg://h:abc/db" } Url.ofValue
  obtain ⟨reported, -⟩ := (unmade (present (by decide))).2 _ _ (.making given rfl rfl rfl)
  obtain ⟨-, -, passed⟩ := (misread (present (by decide))).2 _ _ (.address unread)
  exact ⟨unconfigured absent, reported (.inr (.inr rfl)), passed rfl⟩

/-- What stands for a number and is none is complained about as a value. -/
theorem number_of_an_address_is_no_report :
    (broken.connect { dsn := .text "postgresql://h:abc/db" }).2.outcome =
      .error (.raised (.valueError "invalid literal for int() with base 10: 'abc'")) := by
  rfl

end Connection
end FluentSql
