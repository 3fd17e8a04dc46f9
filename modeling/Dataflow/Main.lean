import Dataflow.CommandLine

/-! The program: it takes a picture of the files it may need, runs the command line on it, and
prints what that leaves behind. -/

namespace Dataflow.Program

/-- Add a file, or all files below a directory; what cannot be read as text is left out. -/
partial def addEntry (files : Files) (place : List String) (e : IO.FS.DirEntry) : IO Files := do
  let place := place ++ [e.fileName]
  if ← e.path.isDir then
    (← e.path.readDir).foldlM (fun files e => addEntry files place e) (files.put place .directory)
  else
    match ← (IO.FS.readFile e.path).toBaseIO with
    | .ok text => return files.putFile place text
    | .error _ => return files

/-- Add the directory that a file is in. -/
def addAround (files : Files) (path : String) : IO Files := do
  match ← (IO.FS.realPath path).toBaseIO with
  | .ok real =>
    match real.parent with
    | some directory =>
      let place := Files.names directory.toString
      (← directory.readDir).foldlM (fun files e => addEntry files place e) files
    | none => return files
  | .error _ => return files

/-- All text of a stream. -/
partial def readAll (stream : IO.FS.Stream) (start : String) : IO String := do
  let line ← stream.getLine
  if line.isEmpty then return start else readAll stream (start ++ line)

/-- The directory of all settings. -/
def settingsDirectory : IO String := do
  match ← IO.getEnv "XDG_CONFIG_HOME" with
  | some path => if path.startsWith "/" then return path
  | none => pure ()
  return Path.join ((← IO.getEnv "HOME").getD "") ".config"

/-- What a run that was asked for finds: the files below the directory the program is in, and those
around the files it was asked for. -/
def picture (asked : CommandLine) : IO CommandLine.Environment := do
  let directory ← IO.currentDir
  let place := Files.names directory.toString
  let settings ← settingsDirectory
  let below ← (← directory.readDir).foldlM (fun files e => addEntry files place e)
    (Files.empty place)
  let named := [Path.join settings Settings.standardPath] ++ asked.settings.toList ++
    asked.script.toList
  let files ← named.foldlM addAround below
  let input ← if asked.script.isSome then pure "" else readAll (← IO.getStdin) ""
  return ⟨files, settings, directory.toString, input⟩

def run (arguments : List String) : IO UInt32 := do
  let env ← match CommandLine.ofArguments {} arguments with
    | .ok asked => picture asked
    | .error _ => pure ⟨Files.empty [], "", "", ""⟩
  let outcome := CommandLine.run arguments env
  IO.print outcome.output
  return outcome.code.toUInt32

end Dataflow.Program

def main (arguments : List String) : IO UInt32 := Dataflow.Program.run arguments
