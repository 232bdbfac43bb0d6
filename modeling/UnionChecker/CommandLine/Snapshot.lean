import UnionChecker.CommandLine.Path
import UnionChecker.Json.Reader
import UnionChecker.Syntax.Decode
import UnionChecker.Text.Unprinted
import UnionChecker.Text.Width
/-!
# Files

The command line works on a snapshot of the files it can see. Parsed files are JSON texts; the
source that one was made from may stand beside it, and errors are then reported in the source.
-/

namespace UnionChecker.CommandLine

open Syntax (SourceFile File)

/-- Files with their contents, by the names that lead to them. -/
structure Snapshot where
  files : List (List String × String)

/-- What a path leads to. -/
inductive Target where
  | file (content : String)
  | folder
  /-- There is nothing. -/
  | missing
  /-- The path goes on behind a file. -/
  | notFolder
  /-- The path or a name in it is too long. -/
  | tooLong
deriving DecidableEq, Repr

/-- The number of bytes that a path has at most. -/
def maxPathBytes : Nat := 4095

/-- The number of bytes that a name has at most. -/
def maxNameBytes : Nat := 255

namespace Snapshot

/-- Whether the names lead to a folder. Every parent of the start is one. -/
def isFolderAt (s : Snapshot) (names : List String) : Bool :=
  names.all (fun name => name == ".." || name == "/")
    || s.files.any fun file => names.isPrefixOf file.1 && names.length < file.1.length

/-- What names lead to. -/
def targetAt (s : Snapshot) (names : List String) : Target :=
  match s.files.lookup names with
  | some content => .file content
  | none => if s.isFolderAt names then .folder else .missing

/-- Where pieces of a path lead to from a place. -/
def follow (s : Snapshot) (names : List String) : List String → Target
  | [] => s.targetAt names
  | piece :: pieces =>
    match s.targetAt names with
    | .folder =>
      if maxNameBytes < piece.utf8ByteSize then .tooLong
      else s.follow (Path.step names piece) pieces
    | .file _ => .notFolder
    | other => other

/-- Where a path leads to. -/
def target (s : Snapshot) (path : String) : Target :=
  if path.isEmpty then .missing
  else if maxPathBytes < path.utf8ByteSize then .tooLong
  else s.follow (Path.start path) (Path.split path)

/-- The contents of a file. -/
def read? (s : Snapshot) (path : String) : Option String :=
  match s.target path with
  | .file content => some content
  | _ => none

/-- Whether a path leads to a folder. -/
def isFolder (s : Snapshot) (path : String) : Bool := s.target path == .folder

end Snapshot

/-- Why files cannot be loaded. -/
inductive LoadError where
  | noSuchPath (path : String)
  | nothingFound (paths : List String)
  | notParsed (path : String)
deriving DecidableEq, Repr

/-- A character inside the quotes of a shown text. One that cannot be seen on its own is shown by
its code point. -/
def shownChar (c : Char) : String :=
  if c == '"' then "\\\""
  else if c == '\\' then "\\\\"
  else if c == '\n' then "\\n"
  else if c == '\r' then "\\r"
  else if c == '\t' then "\\t"
  else if c.toNat == 0 then "\\0"
  else if Text.isUnprinted c || Text.isCombining c || Text.isIgnorable c then
    "\\u\x7b" ++ String.ofList (Nat.toDigits 16 c.toNat) ++ "\x7d"
  else String.ofList [c]

/-- A text in quotes. -/
def shownText (text : String) : String :=
  "\"" ++ String.join (text.toList.map shownChar) ++ "\""

/-- The wording of the error. -/
def LoadError.message : LoadError → String
  | .noSuchPath path => "no such file or directory: " ++ path
  | .nothingFound paths =>
    "no parsed files found in [" ++ ", ".intercalate (paths.map shownText) ++ "]"
  | .notParsed path => path ++ " is not a parsed file"

/-- The extension of parsed files. -/
def parsedExtension : String := "json"

/-- The extension of sources. -/
def sourceExtension : String := "10x"

/-- Whether a folder is passed over. -/
def isSkipped (folder : String) : Bool :=
  folder.toList.head? == some '.' || folder == "target"

/-- The path of a parsed file that `names` lead to from a folder. Hidden folders and build folders
are passed over. -/
def parsedFile? (folder : String) (names : List String) : Option String :=
  match names.getLast? with
  | none => none
  | some name =>
    if names.dropLast.any isSkipped || Path.extension? name != some parsedExtension then none
    else some (Path.join folder ("/".intercalate names))

namespace Snapshot

/-- The parsed files in a folder and below it. -/
def parsedFilesIn (s : Snapshot) (folder : String) : List String :=
  let start := Path.resolve folder
  s.files.filterMap fun file =>
    if start.isPrefixOf file.1 then parsedFile? folder (file.1.drop start.length) else none

/-- The parsed files that a path stands for. A file that is named counts in any case. -/
def filesAt (s : Snapshot) (path : String) : Except LoadError (List String) :=
  if (s.read? path).isSome then .ok [path]
  else if s.isFolder path then .ok (s.parsedFilesIn path)
  else .error (.noSuchPath path)

end Snapshot

/-- A parsed file, with its source when that stands beside it. -/
structure LoadedFile where
  file : SourceFile
  source : Option String

namespace Snapshot

/-- Load a parsed file. -/
def load (s : Snapshot) (path : String) : Except LoadError LoadedFile :=
  match (s.read? path).bind Json.parse? |>.bind File.ofJson? with
  | none => .error (.notParsed path)
  | some tree =>
    let sourcePath := Path.withExtension path sourceExtension
    match s.read? sourcePath with
    | some source => .ok ⟨⟨sourcePath, tree⟩, some source⟩
    | none => .ok ⟨⟨path, tree⟩, none⟩

/-- Load the parsed files that paths stand for, in the order of their paths. -/
def loadAll (s : Snapshot) (paths : List String) : Except LoadError (List LoadedFile) := do
  let found ← paths.mapM s.filesAt
  let sorted := sortOrdered Path.le found.flatten
  if sorted.isEmpty then .error (.nothingFound paths)
  sorted.mapM s.load

end Snapshot

end UnionChecker.CommandLine
