import UnionChecker.CommandLine.Help
import UnionChecker.CommandLine.Snapshot
import UnionChecker.Config.Read
import UnionChecker.Discovery
import UnionChecker.Json.Writer
import UnionChecker.PackageCheck
import UnionChecker.Program.Json
import UnionChecker.Report.Caret
import UnionChecker.Report.Snippet
/-!
# Running the command line

A run is a function from the files and the arguments to an exit code and what is written.
-/

namespace UnionChecker.CommandLine

/-- What a run leaves. -/
structure Ending where
  exit : Nat
  stdout : String
  stderr : String
deriving DecidableEq, Repr

namespace Ending

/-- A run that wrote to the standard output only. -/
def success (stdout : String) : Ending := ⟨0, stdout, ""⟩

/-- A run that could not start its work. -/
def refused (message : String) : Ending := ⟨1, "", "Error: " ++ message ++ "\n"⟩

/-- A call that is wrong. -/
def usage : Ending := ⟨2, "", ""⟩

/-- A run that broke down. -/
def brokenDown : Ending := ⟨101, "", ""⟩

end Ending

/-! ## Settings -/

/-- The file with settings that is used when none is named. -/
def defaultConfigFile : String := "tenecs.toml"

/-- The settings in a file, or a message. -/
def configOf (path content : String) : Except String Config :=
  (Config.read content).mapError fun error => path ++ ": " ++ error.message

/-- The message for a path that leads to no file. -/
def unreadable (path reason : String) : Except String Config :=
  .error (path ++ ": Failed to read config file: " ++ reason)

/-- The settings of a run, or a message. -/
def loadConfig (s : Snapshot) : Option String → Except String Config
  | some path =>
    match s.target path with
    | .file content => configOf path content
    | .folder => unreadable path "Is a directory (os error 21)"
    | .missing => unreadable path "No such file or directory (os error 2)"
    | .notFolder => unreadable path "Not a directory (os error 20)"
    | .tooLong => unreadable path "File name too long (os error 36)"
  | none =>
    match s.read? defaultConfigFile with
    | some content => configOf defaultConfigFile content
    | none => .ok {}

/-! ## Output -/

/-- The source of the file that a report is about. -/
def sourceOf (loaded : List LoadedFile) (r : Report) : Option String :=
  (loaded.find? fun l => l.file.name == r.file).bind (·.source)

/-- A report in a format. -/
def reportText (format : Format) (loaded : List LoadedFile) (r : Report) : String :=
  match format, sourceOf loaded r with
  | .pretty, some source => (Diagnostic.ofReport r 0).render r.file source
  | .caret, some source => r.plain ++ "\n" ++ r.caret source ++ "\n\n"
  | _, _ => r.plain ++ "\n"

/-- All reports in a format, and their number. -/
def reportsText (format : Format) (loaded : List LoadedFile) (reports : List Report) : String :=
  String.join (reports.map (reportText format loaded)) ++ toString reports.length
    ++ (if reports.length == 1 then " error" else " errors") ++ "\n"

/-- The JSON form of a report. -/
def reportJson (r : Report) : Json :=
  .obj [
    ("code", .str r.kind.code),
    ("kind", .str r.kind.label),
    ("message", .str r.message),
    ("file", .str r.file),
    ("line", .int r.span.line),
    ("column", .int r.span.column)]

/-- The summary of a check. -/
def summary : Except (List Failure) Program → Json
  | .ok program =>
    .obj [
      ("ok", .bool true),
      ("package", .str program.table.package),
      ("declarations", .arr (program.declarations.map fun d =>
        .obj [("name", .str d.name), ("type", .str d.ty.name)])),
      ("tests", program.tests.toJson),
      ("runnables", program.runnables.toJson),
      ("errors", .arr [])]
  | .error failures =>
    .obj [
      ("ok", .bool false),
      ("declarations", .arr []),
      ("errors", .arr (failures.map fun f => reportJson f.report))]

/-- The declarations of a package with their types, and how many they are. -/
def declarationsText (p : Program) : String :=
  textOfLines (p.declarations.map (fun d => d.name ++ ": " ++ d.ty.name)
    ++ ["checked package " ++ p.table.package ++ " (" ++ toString p.declarations.length
      ++ " declarations)"])

/-- A section of a list of tests. Empty ones are left out. -/
def section? (title : String) (refs : List Ref) : List String :=
  if refs.isEmpty then [] else title :: refs.map fun r => "  " ++ r.display

/-- The tests and entry points of a package. -/
def testsText (p : Program) : String :=
  textOfLines (section? "unit tests" p.tests.unitTests
    ++ section? "unit test suites" p.tests.unitTestSuites
    ++ section? "go integration tests" p.tests.goIntegrationTests
    ++ section? "go main" p.runnables.goMain
    ++ section? "web apps" p.runnables.webApps
    ++ if p.tests.isEmpty then ["no tests found"] else [])

/-- The ending of a check, by command and format. -/
def ending (command : Command) (format : Format) (loaded : List LoadedFile)
    (result : Except (List Failure) Program) : Ending :=
  let exit := match result with
    | .ok _ => 0
    | .error _ => 1
  match format, result with
  | .json, _ => ⟨exit, (summary result).renderPretty "" ++ "\n", ""⟩
  | _, .error failures => ⟨exit, "", reportsText format loaded (failures.map Failure.report)⟩
  | _, .ok program =>
    match command with
    | .check => .success (declarationsText program)
    | .tests => .success (testsText program)

/-! ## Runs -/

/-- Run a command. Without paths it works on the current folder. -/
def runCommand (s : Snapshot) (command : Command) (o : CommandOptions) : Ending :=
  match loadConfig s o.shared.config with
  | .error message => .refused message
  | .ok config =>
    let config := o.apply config
    match config.validate with
    | .error error => .refused (ConfigError.invalid error).message
    | .ok () =>
      match s.loadAll (if o.files.isEmpty then ["."] else o.files) with
      | .error error => .refused error.message
      | .ok loaded =>
        match answer config (loaded.map (·.file)) with
        | none => .brokenDown
        | some result => ending command (o.format.getD .pretty) loaded result

/-- Run the command line. -/
def run (s : Snapshot) (args : List String) : Ending :=
  match Call.ofArguments args with
  | .usage => .usage
  | .version => .success versionText
  | .help => .success helpText
  | .helpHelp => .success helpHelpText
  | .commandHelp command full =>
    .success (if full then command.fullHelp else command.shortHelp)
  | .run command options => runCommand s command options

end UnionChecker.CommandLine
