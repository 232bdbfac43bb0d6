import UnionChecker.Config.Basic
import UnionChecker.Toml.Reader
/-!
# Settings from a file

The settings stand in the table `checker` of a TOML text. What is missing has its default, and other
tables and keys are ignored. An array in place of the table lists the settings in order, and a date
in its place gives none.
-/

namespace UnionChecker

/-- Why a text gives no settings. -/
inductive ConfigError where
  /-- It is no TOML text, or a setting has the wrong type. -/
  | malformed (line column : Nat)
  /-- A setting is out of its range. -/
  | invalid (error : SettingError)
deriving DecidableEq, Repr

/-- The wording of the error. -/
def ConfigError.message : ConfigError → String
  | .malformed line column =>
    "Failed to parse config: TOML parse error at line " ++ toString line ++ ", column "
      ++ toString column
  | .invalid error => "Invalid config: " ++ error.message

namespace Config

open Toml (Value)

/-- A truth value at a place. -/
def readBool (place : Nat) : Value → Except Nat Bool
  | .boolean b => .ok b
  | _ => .error place

/-- A natural number at a place. -/
def readNat (place : Nat) : Value → Except Nat Nat
  | .integer n => if n < 0 then .error place else .ok n.toNat
  | _ => .error place

/-- A string at a place. -/
def readText (place : Nat) : Value → Except Nat String
  | .string text => .ok text
  | _ => .error place

/-- The names of the settings, in order. -/
def settingNames : List String :=
  ["parallel", "max_workers", "timeout_ms", "fail_fast", "log_level"]

/-- Take over a setting. Other names are ignored. -/
def withSetting (c : Config) (name : String) (place : Nat) (value : Value) : Except Nat Config :=
  match name with
  | "parallel" => do return { c with parallel := ← readBool place value }
  | "max_workers" => do return { c with maxWorkers := some (← readNat place value) }
  | "timeout_ms" => do return { c with timeoutMs := ← readNat place value }
  | "fail_fast" => do return { c with failFast := ← readBool place value }
  | "log_level" => do return { c with logLevel := ← readText place value }
  | _ => return c

/-- Take over named settings. -/
def withSettings (c : Config) (entries : Toml.Entries) : Except Nat Config :=
  entries.foldlM (fun c (name, place, value) => c.withSetting name place value) c

/-- The settings in a value at a place. -/
def ofValue (place : Nat) : Value → Except Nat Config
  | .table _ entries => withSettings {} entries
  | .array items => withSettings {} (settingNames.zip items)
  | .datetime => .ok {}
  | .tables elements =>
    withSettings {} (settingNames.zip (elements.map fun (start, entries) =>
      (start, Value.table .header entries)))
  | _ => .error place

/-- The settings in a text, not yet validated. -/
def ofToml (text : String) : Except Nat Config := do
  let root ← Toml.read text
  match root.lookup "checker" with
  | none => return {}
  | some (place, value) => ofValue place value

/-- The settings in a text. -/
def read (text : String) : Except ConfigError Config :=
  match ofToml text with
  | .error left =>
    let (line, column) := Toml.lineAndColumn text left
    .error (.malformed line column)
  | .ok config =>
    match config.validate with
    | .ok () => .ok config
    | .error error => .error (.invalid error)

end Config

end UnionChecker
