import UnionChecker.CommandLine.Run
/-!
# The program

Reads the files that a call may need, runs the call and writes what it leaves.
-/

namespace UnionChecker.Program

open CommandLine

/-- Whether a file may be needed without being named. -/
def isRelevant (name : String) : Bool :=
  match Path.extension? name with
  | some e => [parsedExtension, sourceExtension, "toml"].contains e
  | none => false

/-- A file under its resolved names. None when it cannot be read. -/
def readFile (path : String) : IO (List (List String × String)) := do
  try
    return [(Path.resolve path, ← IO.FS.readFile path)]
  catch _ =>
    return []

/-- Whether a path leads to a folder. -/
def isFolder (path : String) : IO Bool := do
  try
    (← IO.FS.realPath path).isDir
  catch _ =>
    return false

/-- The files in a folder and below it that may be needed. -/
partial def readFolder (path : String) : IO (List (List String × String)) := do
  let mut found := []
  for entry in ← (← IO.FS.realPath path).readDir do
    let inner := Path.join path entry.fileName
    if ← isFolder inner then
      found := found ++ (← readFolder inner)
    else if isRelevant entry.fileName then
      found := found ++ (← readFile inner)
  return found

/-- What a path stands for: a folder with what is below it, or a file and the source beside it. -/
def readPath (path : String) : IO (List (List String × String)) := do
  if ← isFolder path then readFolder path
  else return (← readFile path) ++ (← readFile (Path.withExtension path sourceExtension))

/-- The files that a call may need. -/
def snapshot (args : List String) : IO Snapshot := do
  match Call.ofArguments args with
  | .run _ options =>
    let named := options.files ++ options.shared.config.toList ++ [defaultConfigFile]
    let paths := if options.files.isEmpty then "." :: named else named
    return ⟨(← paths.mapM readPath).flatten⟩
  | _ => return ⟨[]⟩

end UnionChecker.Program

/-- Run the command line on the files at hand. -/
def main (args : List String) : IO UInt32 := do
  let ending := UnionChecker.CommandLine.run (← UnionChecker.Program.snapshot args) args
  (← IO.getStdout).putStr ending.stdout
  (← IO.getStderr).putStr ending.stderr
  return ending.exit.toUInt32
