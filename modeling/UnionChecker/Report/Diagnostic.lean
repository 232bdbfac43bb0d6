import UnionChecker.Json.Value
import UnionChecker.Failure
import UnionChecker.Report.Location
/-!
# Diagnostics

A diagnostic is a message with labels on parts of a text and with notes. An error becomes a
diagnostic with one label and, for some kinds, with advice.
-/

namespace UnionChecker

/-- How grave a diagnostic is. -/
inductive Severity where
  | bug
  | error
  | warning
  | note
  | help
deriving DecidableEq, Repr

namespace Severity

def all : List Severity := [.bug, .error, .warning, .note, .help]

def label : Severity → String
  | .bug => "bug"
  | .error => "error"
  | .warning => "warning"
  | .note => "note"
  | .help => "help"

/-- The severity with a given name. -/
def ofLabel? (label : String) : Option Severity := all.find? fun s => s.label == label

end Severity

/-- Whether a label marks the error itself or something related. -/
inductive LabelStyle where
  | primary
  | secondary
deriving DecidableEq, Repr

def LabelStyle.label : LabelStyle → String
  | .primary => "primary"
  | .secondary => "secondary"

/-- A message on the bytes from `start` to `stop` of a file. -/
structure Label where
  style : LabelStyle
  /-- The file, by its place in a list of files. -/
  file : Nat
  start : Nat
  stop : Nat
  message : String
deriving DecidableEq, Repr

/-- A label on a span. One that ends before it starts is empty. -/
def Label.ofSpan (style : LabelStyle) (file : Nat) (span : Syntax.Span) (message : String) :
    Label :=
  ⟨style, file, span.start, max span.start span.stop, message⟩

/-- A message about a text. -/
structure Diagnostic where
  severity : Severity
  code : Option String
  message : String
  labels : List Label
  notes : List String
deriving DecidableEq, Repr

/-- What the label of an error says. -/
def ErrorKind.labelText : ErrorKind → String
  | .typeMismatch => "type mismatch"
  | .unresolvedReference => "not found"
  | .notFoundType => "unknown type"
  | .duplicateVariable => "declared again here"
  | .duplicateDeclaration => "declared again here"
  | .nonExhaustiveMatch => "missing cases"
  | .duplicateOrUnreachableCase => "unreachable arm"
  | .unnarrowableGeneric => "cannot be narrowed"
  | .shortCircuitOutsideReturnCompatibleFunction => "short-circuit"
  | .timeout => "check did not finish"

/-- A note that tells what to do. -/
def helpNote (text : String) : String := "help: " ++ text

/-- The notes on an error of a kind. -/
def ErrorKind.notes : ErrorKind → List String
  | .nonExhaustiveMatch => [helpNote "add the missing `is` arms or an `other` arm"]
  | .duplicateOrUnreachableCase => ["each union element can be matched by one arm only"]
  | .unnarrowableGeneric =>
    ["generic arguments are erased at runtime",
      helpNote "add a field whose type is exactly the generic parameter"]
  | .shortCircuitOutsideReturnCompatibleFunction =>
    [helpNote "the residual type must be assignable to the enclosing function's return type"]
  | .timeout => [helpNote "raise `timeout_ms` in the [checker] table of tenecs.toml"]
  | _ => []

namespace Diagnostic

/-- A diagnostic without labels and notes. -/
def plain (severity : Severity) (message : String) : Diagnostic := ⟨severity, none, message, [], []⟩

/-- The diagnostic of an error in a file. -/
def ofReport (r : Report) (file : Nat) : Diagnostic :=
  ⟨.error, some r.kind.code, r.message, [.ofSpan .primary file r.span r.kind.labelText],
    r.kind.notes⟩

def withLabel (d : Diagnostic) (label : Label) : Diagnostic :=
  { d with labels := d.labels ++ [label] }

def withNote (d : Diagnostic) (note : String) : Diagnostic := { d with notes := d.notes ++ [note] }

end Diagnostic

/-- The JSON form of a label in a file with a given name. -/
def Label.toJson (name : String) (lines : List SourceLine) (label : Label) : Json :=
  let start := Place.ofByte lines label.start
  let stop := Place.ofByte lines label.stop
  .obj [
    ("file", .str name),
    ("start_line", .int start.line),
    ("start_column", .int start.column),
    ("end_line", .int stop.line),
    ("end_column", .int stop.column),
    ("message", .str label.message),
    ("style", .str label.style.label)]

/-- The JSON form of a diagnostic about the only file, number zero. Labels of other files are left
out. -/
def Diagnostic.toJson (name source : String) (d : Diagnostic) : Json :=
  let lines := SourceLine.ofText source
  .obj [
    ("code", (d.code.map Json.str).getD .null),
    ("severity", .str d.severity.label),
    ("message", .str d.message),
    ("labels", .arr ((d.labels.filter fun l => l.file == 0).map (Label.toJson name lines))),
    ("notes", Json.strings d.notes)]

end UnionChecker
