/-!
# Settings of a check
-/

namespace UnionChecker

/-- Settings of a check. -/
structure Config where
  /-- Check declarations on several workers. -/
  parallel : Bool := true
  /-- The number of workers, none for as many as the machine has processors. -/
  maxWorkers : Option Nat := none
  /-- How long a worker may take for a declaration, in milliseconds. -/
  timeoutMs : Nat := 5000
  /-- Stop at the first failure. -/
  failFast : Bool := false
  logLevel : String := "warn"
deriving DecidableEq, Repr

/-- A setting out of its range. -/
inductive SettingError where
  | noWorkers
  | noTime
deriving DecidableEq, Repr

/-- The wording of the error. -/
def SettingError.message : SettingError → String
  | .noWorkers => "max_workers must be at least 1"
  | .noTime => "timeout_ms must be at least 1"

namespace Config

/-- Settings for checking declarations one after the other. -/
def sequential : Config := { parallel := false }

/-- The number of workers, on a machine with the given number of processors. -/
def workers (c : Config) (processors : Nat) : Nat := c.maxWorkers.getD processors

/-- Require that all settings are in range. -/
def validate (c : Config) : Except SettingError Unit :=
  if c.maxWorkers == some 0 then .error .noWorkers
  else if c.timeoutMs == 0 then .error .noTime
  else .ok ()

end Config

end UnionChecker
