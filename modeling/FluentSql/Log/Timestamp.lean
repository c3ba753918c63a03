import FluentSql.Decimal.Places
import FluentSql.Failure

/-!
Points in time on the calendar of universal time, from seconds since the start of 1970. A fraction
is kept to whole microseconds, a tie going to the even one, and is written only when there is one.
-/

namespace FluentSql.Log

/-- A day of the calendar; months and days count from one. -/
structure Date where
  year : Int
  month : Nat
  day : Nat
deriving DecidableEq, Repr

namespace Date

/-- The days of four hundred years, after which the calendar repeats. -/
def cycleDays : Int := 146097

/-- The days from the first of March of the year zero to the first of January 1970. -/
def startDays : Int := 719468

/-- The year within a cycle, counted from March, that a day of the cycle is in. -/
def yearOfCycle (day : Nat) : Nat := (day - day / 1460 + day / 36524 - day / 146096) / 365

/-- The days of a cycle before one of its years. -/
def daysBefore (year : Nat) : Nat := 365 * year + year / 4 - year / 100

/-- The day that lies so many days after the first of January 1970. Years are counted from March, so
that the day a leap year adds is the last of its year. -/
def ofDays (days : Int) : Date :=
  let shifted := days + startDays
  let cycle := shifted.fdiv cycleDays
  let day := (shifted - cycle * cycleDays).toNat
  let year := yearOfCycle day
  let day := day - daysBefore year
  let month := (5 * day + 2) / 153
  { year := cycle * 400 + year + (if month < 10 then 0 else 1)
    month := if month < 10 then month + 3 else month - 9
    day := day - (153 * month + 2) / 5 + 1 }

end Date

/-- Whole seconds since the start of 1970, and microseconds below a million beyond them. -/
structure Timestamp where
  seconds : Int
  micros : Nat := 0
deriving DecidableEq, Repr

namespace Timestamp

def daySeconds : Int := 86400

def microsPerSecond : Nat := 1000000

/-- The bound of the seconds that can be told. -/
def secondsBound : Int := 9223372036854775808

/-- The bound of the years, counted from 1900, that can be told; a year itself wraps around there.
-/
def yearBound : Int := 2147483648

/-- The microseconds of a fraction of a second, with the fraction multiplied before it is rounded.
-/
def roundMicros (num den : Nat) : Nat :=
  match Binary64.ofRatio false (num * microsPerSecond) den with
  | .finite _ m e =>
    let (num, den) := Binary64.ratio m e
    Binary64.roundQuotient num den
  | _ => 0

/-- A magnitude in seconds, before or after the start of 1970. -/
def ofRatio (negative : Bool) (num den : Nat) : Timestamp :=
  let whole : Int := (num / den : Nat)
  let micros := roundMicros (num % den) den
  if !negative then
    if microsPerSecond ≤ micros then ⟨whole + 1, micros - microsPerSecond⟩ else ⟨whole, micros⟩
  else if micros = 0 then ⟨-whole, 0⟩
  else ⟨-whole - 1, microsPerSecond - micros⟩

def outOfRange : Raised := .overflowError "timestamp out of range for platform time_t"

/-- The point in time that a number of seconds denotes. -/
def ofValue {τ : Type} (v : Value τ) : Except Raised Timestamp :=
  match v with
  | .bool b => .ok ⟨if b then 1 else 0, 0⟩
  | .int n => bounded ⟨n, 0⟩
  | .float (.finite negative m e) =>
    let (num, den) := Binary64.ratio m e
    bounded (ofRatio negative num den)
  | .float (.infinite _) => .error outOfRange
  | .float .nan => .error (.valueError "Invalid value NaN (not a number)")
  | v => .error (.typeError s!"'{v.typeName}' object cannot be interpreted as an integer")
where
  bounded (t : Timestamp) : Except Raised Timestamp :=
    if -secondsBound ≤ t.seconds ∧ t.seconds < secondsBound then .ok t else .error outOfRange

/-- A number with at least so many digits. -/
def digits (width n : Nat) : String :=
  String.ofList (Binary64.padZeros width (Nat.toDigits 10 n))

def date (t : Timestamp) : Date := .ofDays (t.seconds.fdiv daySeconds)

/-- The seconds since the start of the day. -/
def secondOfDay (t : Timestamp) : Nat := (t.seconds.fmod daySeconds).toNat

/-- The written form; only years of one to four digits have one. -/
def write (t : Timestamp) : Except Raised String :=
  let d := t.date
  let s := t.secondOfDay
  let counted := d.year - 1900
  if counted < -yearBound ∨ yearBound ≤ counted then
    .error ⟨"OSError", "Value too large for defined data type", false⟩
  else if d.year < 1 ∨ 9999 < d.year then
    let shown := d.year.bmod (2 * yearBound.toNat)
    .error (.valueError s!"year {shown} is out of range")
  else
    let fraction := if t.micros = 0 then "" else "." ++ digits 6 t.micros
    .ok (s!"{digits 4 d.year.toNat}-{digits 2 d.month}-{digits 2 d.day}T" ++
      s!"{digits 2 (s / 3600)}:{digits 2 (s / 60 % 60)}:{digits 2 (s % 60)}{fraction}+00:00")

end Timestamp
end FluentSql.Log
