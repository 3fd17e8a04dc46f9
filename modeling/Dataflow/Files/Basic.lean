import Dataflow.Files.Path

/-! The files that a program can see, as a list of places with what is there, and the place that
relative paths start from. A place is the list of names that leads to it from the root. -/

namespace Dataflow

inductive FileFault
  | notFound
  | notDirectory
  | isDirectory
  | exists
  | nameTooLong
  | nulInName
  | other (text : String)
deriving DecidableEq

def FileFault.message : FileFault → String
  | .notFound => "No such file or directory (os error 2)"
  | .notDirectory => "Not a directory (os error 20)"
  | .isDirectory => "Is a directory (os error 21)"
  | .exists => "File exists (os error 17)"
  | .nameTooLong => "File name too long (os error 36)"
  | .nulInName => "file name contained an unexpected NUL byte"
  | .other text => text

/-- What is at a place. -/
inductive FileNode
  | file (text : String)
  | directory
deriving DecidableEq

structure Files where
  nodes : List (List String × FileNode)
  workingPlace : List String

namespace Files

/-- What is at the place that a list of names leads to. -/
def node? (fs : Files) (place : List String) : Option FileNode :=
  if place.isEmpty then some .directory
  else (fs.nodes.find? fun e => e.1 == place).map Prod.snd

def put (fs : Files) (place : List String) (node : FileNode) : Files :=
  { fs with nodes := (place, node) :: fs.nodes.filter fun e => e.1 != place }

/-- Bytes that a path may have. -/
def pathLimit : Nat := 4095

/-- Bytes that a name in a directory may have. -/
def nameLimit : Nat := 255

/-- The place a path starts from and its parts, or why it leads nowhere at all. -/
def parts (fs : Files) (path : String) : Except FileFault (List String × List String) :=
  if path.toList.contains '\x00' then .error .nulInName
  else if path.isEmpty then .error .notFound
  else if pathLimit < path.utf8ByteSize then .error .nameTooLong
  else .ok (if path.toList.head? = some '/' then [] else fs.workingPlace,
    (Text.fields '/' path.toList).map .ofList)

/-- Walk on from a place. Whatever is walked on from has to be a directory, also if the name looked
up in it is too long; the root is above itself. -/
def walk (fs : Files) (place : List String) : List String → Except FileFault (List String)
  | [] => .ok place
  | part :: rest =>
    match fs.node? place with
    | none => .error .notFound
    | some (.file _) => .error .notDirectory
    | some .directory =>
      if Path.isTrivial part.toList then fs.walk place rest
      else if part = ".." then fs.walk place.dropLast rest
      else if nameLimit < part.utf8ByteSize then .error .nameTooLong
      else fs.walk (place ++ [part]) rest

/-- The place of a path and what is there. -/
def find (fs : Files) (path : String) : Except FileFault (List String × FileNode) := do
  let (start, all) ← fs.parts path
  let place ← fs.walk start all
  match fs.node? place with
  | some node => return (place, node)
  | none => .error .notFound

def isDirectory (fs : Files) (path : String) : Bool :=
  match fs.find path with
  | .ok (_, .directory) => true
  | _ => false

def doesExist (fs : Files) (path : String) : Bool := (fs.find path).isOk

def read (fs : Files) (path : String) : Except FileFault String := do
  match ← fs.find path with
  | (_, .file text) => return text
  | (_, .directory) => .error .isDirectory

/-- The place of a path that is to be made, with its last part; the directory it is made in has to
be there. Slashes at the end are left off, and reported. -/
def making (fs : Files) (path : String) : Except FileFault (List String × String × Bool) := do
  let (start, all) ← fs.parts path
  let kept := (all.reverse.dropWhile (·.isEmpty)).reverse
  let directory ← fs.walk start (kept.dropLast ++ ["."])
  return (directory, kept.getLast?.getD "", kept.length != all.length)

/-- Whether a part leads to a directory wherever it stands. -/
def isDots (part : String) : Bool := part == "." || part == ".."

def write (fs : Files) (path text : String) : Except FileFault Files := do
  let (directory, last, slash) ← fs.making path
  let place := directory ++ [last]
  if slash || isDots last || fs.node? place = some .directory then .error .isDirectory
  else if nameLimit < last.utf8ByteSize then .error .nameTooLong
  else return fs.put place (.file text)

def createDirectory (fs : Files) (path : String) : Except FileFault Files := do
  let (directory, last, _) ← fs.making path
  let place := directory ++ [last]
  if isDots last || (fs.node? place).isSome then .error .exists
  else if nameLimit < last.utf8ByteSize then .error .nameTooLong
  else return fs.put place .directory

/-- A directory that may be there already. -/
def ensureDirectory (fs : Files) (path : String) : Except FileFault Files :=
  match fs.createDirectory path with
  | .ok fs => .ok fs
  | .error fault => if fs.isDirectory path then .ok fs else .error fault

/-- A directory with all that it is in. The path gets shorter on the way up, so the fuel of its
length is never used up. -/
def ensureAll (fs : Files) (path : String) : Nat → Except FileFault Files
  | 0 => .ok fs
  | fuel + 1 =>
    if path.isEmpty then .ok fs
    else match fs.ensureDirectory path, Path.parent? path with
      | .error .notFound, some above => do (← fs.ensureAll above fuel).ensureDirectory path
      | .error .notFound, none => .error (.other "failed to create whole tree")
      | result, _ => result

def createDirectories (fs : Files) (path : String) : Except FileFault Files :=
  fs.ensureAll path (path.length + 1)

/-- Put a file at a place, with the directories it is in. -/
def putFile (fs : Files) (place : List String) (text : String) : Files :=
  let fs := (List.range place.length).foldl
    (fun fs n => if n = 0 then fs else fs.put (place.take n) .directory) fs
  fs.put place (.file text)

/-- Nothing but a working directory. -/
def empty (workingPlace : List String) : Files :=
  (List.range (workingPlace.length + 1)).foldl
    (fun fs n => if n = 0 then fs else fs.put (workingPlace.take n) .directory) ⟨[], workingPlace⟩

/-- The names that a path consists of. -/
def names (path : String) : List String :=
  ((Text.fields '/' path.toList).filter fun part => !Path.isTrivial part).map String.ofList

/-- Files in a working directory, given by their paths. -/
def ofTexts (workingPlace : List String) (texts : List (String × String)) : Files :=
  texts.foldl (fun fs (path, text) => fs.putFile (workingPlace ++ names path) text)
    (empty workingPlace)

end Files

end Dataflow
