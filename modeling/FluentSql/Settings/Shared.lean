import FluentSql.Settings.Groups

/-!
Shared settings. They are read from the environment when they are first asked for and kept from then
on, until they are asked for anew.
-/

namespace FluentSql

/-- The environment with the settings read from it so far; each reading has a number. -/
structure SharedSettings where
  environment : Environment
  current : Option (Nat × Settings) := none
  readings : Nat := 0
deriving Repr

namespace SharedSettings

/-- Reads the settings anew. What was kept stays when they cannot be read. -/
def read (s : SharedSettings) : Except Error (Nat × Settings) × SharedSettings :=
  match Settings.ofSources s.environment [] with
  | .error e => (.error e, s)
  | .ok settings =>
    let n := s.readings + 1
    (.ok (n, settings), { s with current := some (n, settings), readings := n })

/-- The shared settings with the number of their reading. -/
def get (s : SharedSettings) (anew : Bool) : Except Error (Nat × Settings) × SharedSettings :=
  match s.current, anew with
  | some found, false => (.ok found, s)
  | _, _ => s.read

/-- Forgets what was kept and reads the settings again. -/
def reload (s : SharedSettings) : Except Error (Nat × Settings) × SharedSettings :=
  read { s with current := none }

end SharedSettings
end FluentSql
