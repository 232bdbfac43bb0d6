import UnionChecker.Basic
import UnionChecker.Config.Basic
/-!
# Arguments of the command line

A call names a command and gives options and paths. Some options are known before the command and
after it; the one after it counts then. Every other option may be given once. Arguments are read
from left to right, and the first one that asks for help or is wrong decides.
-/

namespace UnionChecker.CommandLine

/-- What to do. -/
inductive Command where
  /-- Check a package. -/
  | check
  /-- List the tests and entry points of a package. -/
  | tests
deriving DecidableEq, Repr

def Command.label : Command → String
  | .check => "check"
  | .tests => "tests"

/-- The command with a given name. -/
def Command.ofLabel? (label : String) : Option Command :=
  [Command.check, Command.tests].find? fun c => c.label == label

/-- How results are written. -/
inductive Format where
  /-- Errors with snippets of the source. -/
  | pretty
  /-- Errors with numbered excerpts. -/
  | caret
  /-- A summary for programs. -/
  | json
deriving DecidableEq, Repr

/-- The format with a given name. -/
def Format.ofLabel? : String → Option Format
  | "pretty" => some .pretty
  | "caret" => some .caret
  | "json" => some .json
  | _ => none

/-- Options that are known everywhere, as far as they were given. -/
structure GlobalOptions where
  config : Option String := none
  color : Option String := none
deriving DecidableEq, Repr

/-- The arguments of a command, as far as they were given. -/
structure CommandOptions where
  shared : GlobalOptions := {}
  files : List String := []
  sequential : Bool := false
  maxWorkers : Option Nat := none
  timeoutMs : Option Nat := none
  failFast : Bool := false
  format : Option Format := none
deriving DecidableEq, Repr

/-- What a call asks for. -/
inductive Call where
  | run (command : Command) (options : CommandOptions)
  | version
  | help
  /-- The help of the command that shows help. -/
  | helpHelp
  /-- The help of a command, in full or short. -/
  | commandHelp (command : Command) (full : Bool)
  /-- The call is wrong. -/
  | usage
deriving DecidableEq, Repr

/-- Settings with the options of a command in place. -/
def CommandOptions.apply (o : CommandOptions) (c : Config) : Config :=
  { c with
    parallel := c.parallel && !o.sequential
    maxWorkers := o.maxWorkers.or c.maxWorkers
    timeoutMs := o.timeoutMs.getD c.timeoutMs
    failFast := c.failFast || o.failFast }

/-! ## Reading -/

/-- An option after its dashes: its name, and the value after an equals sign. -/
def longOption? (arg : String) : Option (String × Option String) :=
  match arg.toList with
  | '-' :: '-' :: c :: rest =>
    let text := c :: rest
    let name := String.ofList (text.takeWhile (· != '='))
    match text.dropWhile (· != '=') with
    | [] => some (name, none)
    | _ :: value => some (name, some (String.ofList value))
  | _ => none

/-- The letters of short options. -/
def shortOptions? (arg : String) : Option (List Char) :=
  match arg.toList with
  | '-' :: c :: rest => if c == '-' then none else some (c :: rest)
  | _ => none

/-- Whether an argument can be the value of the option before it. -/
def isValue (arg : String) : Bool :=
  match arg.toList with
  | '-' :: _ :: _ => false
  | _ => true

/-- The value of an option: the one after the equals sign, or else the next argument. -/
def optionValue? (given : Option String) (rest : List String) : Option (String × List String) :=
  match given, rest with
  | some value, rest => some (value, rest)
  | none, arg :: rest => if isValue arg then some (arg, rest) else none
  | none, [] => none

/-- A number below 2^64. A plus may stand before it. -/
def number? (text : String) : Option Nat :=
  let digits := match text.toList with
    | '+' :: rest => rest
    | cs => cs
  if digits.isEmpty || !digits.all Char.isDigit then none
  else
    let n := digits.foldl (fun n c => n * 10 + (c.toNat - '0'.toNat)) 0
    if n < limit64 then some n else none

/-- Take over an option that is known everywhere and has a value. None when it has been given or the
value is wrong. -/
def GlobalOptions.set? (o : GlobalOptions) (name value : String) : Option GlobalOptions :=
  match name with
  | "config" =>
    if o.config.isSome || value.isEmpty then none else some { o with config := some value }
  | "color" => if o.color.isSome then none else some { o with color := some value }
  | _ => none

/-- Take over an option of a command that has a value. None when it is unknown, has been given or
the value is wrong. -/
def CommandOptions.set? (o : CommandOptions) (name value : String) : Option CommandOptions :=
  match name with
  | "max-workers" =>
    if o.maxWorkers.isSome then none
    else (number? value).map fun n => { o with maxWorkers := some n }
  | "timeout-ms" =>
    if o.timeoutMs.isSome then none
    else (number? value).map fun n => { o with timeoutMs := some n }
  | "format" =>
    if o.format.isSome then none
    else (Format.ofLabel? value).map fun format => { o with format := some format }
  | _ => (o.shared.set? name value).map fun shared => { o with shared }

/-- Take over an option of a command that has no value. None when it is unknown or has been
given. -/
def CommandOptions.flag? (o : CommandOptions) (name : String) : Option CommandOptions :=
  match name with
  | "sequential" => if o.sequential then none else some { o with sequential := true }
  | "fail-fast" => if o.failFast then none else some { o with failFast := true }
  | "verbose" => some o
  | _ => none

/-- Whether an option of a command has a value. -/
def hasValue (name : String) : Bool :=
  ["config", "color", "max-workers", "timeout-ms", "format"].contains name

/-- The short options of a command: `v` for more logging, `h` for help. None when all are read. -/
def commandLetters (command : Command) : List Char → Option Call
  | [] => none
  | 'v' :: letters => commandLetters command letters
  | 'h' :: _ => some (.commandHelp command false)
  | _ :: _ => some .usage

/-- Read the arguments of a command. -/
def commandArguments (command : Command) : (fuel : Nat) → List String → CommandOptions → Call
  | _, [], o => .run command o
  | 0, _ :: _, _ => .usage
  | fuel + 1, arg :: rest, o =>
    if arg == "--" then .run command { o with files := o.files ++ rest }
    else
      match longOption? arg with
      | some ("help", none) => .commandHelp command true
      | some (name, given) =>
        if hasValue name then
          match optionValue? given rest with
          | none => .usage
          | some (value, rest) =>
            match o.set? name value with
            | none => .usage
            | some o => commandArguments command fuel rest o
        else if given.isSome then .usage
        else
          match o.flag? name with
          | none => .usage
          | some o => commandArguments command fuel rest o
      | none =>
        match shortOptions? arg with
        | some letters =>
          match commandLetters command letters with
          | some call => call
          | none => commandArguments command fuel rest o
        | none => commandArguments command fuel rest { o with files := o.files ++ [arg] }

/-- The arguments of the command `help`. -/
def helpArguments : List String → Call
  | [] => .help
  | [name] =>
    match Command.ofLabel? name with
    | some command => .commandHelp command true
    | none => if name == "help" then .helpHelp else .usage
  | _ => .usage

/-- Short options before the command. None when all are read. -/
def letters : List Char → Option Call
  | [] => none
  | 'v' :: rest => letters rest
  | 'h' :: _ => some .help
  | 'V' :: _ => some .version
  | _ :: _ => some .usage

/-- The options of a command together with those before it. -/
def withGlobal (o : GlobalOptions) : Call → Call
  | .run command options =>
    .run command { options with
      shared := ⟨options.shared.config.or o.config, options.shared.color.or o.color⟩ }
  | call => call

/-- Read arguments up to the command, given the options before. -/
def callArguments : (fuel : Nat) → List String → GlobalOptions → Call
  | _, [], _ => .usage
  | 0, _ :: _, _ => .usage
  | fuel + 1, arg :: rest, o =>
    match longOption? arg with
    | some ("help", none) => .help
    | some ("version", none) => .version
    | some ("verbose", none) => callArguments fuel rest o
    | some (name, given) =>
      if name == "config" || name == "color" then
        match optionValue? given rest with
        | none => .usage
        | some (value, rest) =>
          match o.set? name value with
          | none => .usage
          | some o => callArguments fuel rest o
      else .usage
    | none =>
      match shortOptions? arg with
      | some cs =>
        match letters cs with
        | some call => call
        | none => callArguments fuel rest o
      | none =>
        if arg == "help" then helpArguments rest
        else
          match Command.ofLabel? arg with
          | some command => withGlobal o (commandArguments command rest.length rest {})
          | none => .usage

/-- What a list of arguments asks for. -/
def Call.ofArguments (args : List String) : Call := callArguments args.length args {}

end UnionChecker.CommandLine
