/-
  A tree of files, and what the paths that a run is given lead to in it. A path is walked name by
  name from the root or from the working directory, and every name but the last has to be that of
  a directory. A path that is to be written must not end with a slash; one that is read may, if it
  leads to a directory. There are no links: everything stands at one place.
-/

namespace ByteAssembler.CommandLine

/-- An error of the operating system, by its number. -/
structure FileError where
  code : Nat
  text : String
  deriving DecidableEq

namespace FileError

def message (e : FileError) : String :=
  s!"{e.text} (os error {e.code})"

def notFound : FileError :=
  ⟨2, "No such file or directory"⟩

def badDescriptor : FileError :=
  ⟨9, "Bad file descriptor"⟩

def notDirectory : FileError :=
  ⟨20, "Not a directory"⟩

def isDirectory : FileError :=
  ⟨21, "Is a directory"⟩

def noSpace : FileError :=
  ⟨28, "No space left on device"⟩

def nameTooLong : FileError :=
  ⟨36, "File name too long"⟩

end FileError

/-- How many bytes pass before an error holds up the rest. -/
inductive Room
  | unlimited
  | limited (bytes : Nat) (error : FileError)
  deriving DecidableEq

namespace Room

/-- What passes of the data. -/
def pass : Room → List UInt8 → List UInt8
  | .unlimited, data => data
  | .limited bytes _, data => data.take bytes

/-- Whether all of the data passes. -/
def check : Room → List UInt8 → Except FileError Unit
  | .unlimited, _ => .ok ()
  | .limited bytes error, data => if data.length ≤ bytes then .ok () else .error error

/-- The room that is left behind the data. -/
def after : Room → List UInt8 → Room
  | .unlimited, _ => .unlimited
  | .limited bytes error, data => .limited (bytes - data.length) error

end Room

/-- What can be read from a device. -/
inductive Supply
  | ends (contents : List UInt8)
  /-- The same byte again and again. -/
  | endless (byte : UInt8)
  deriving DecidableEq

/-- A device keeps nothing of what is written to it. -/
structure Device where
  supply : Supply := .ends []
  room : Room := .unlimited
  deriving DecidableEq

/-- Takes everything. -/
def Device.null : Device := {}

/-- Has no room for anything, and yields zeros without end. -/
def Device.full : Device :=
  { supply := .endless 0, room := .limited 0 .noSpace }

/-- What stands at a place in the tree. -/
inductive Node
  | directory
  | file (contents : List UInt8)
  | device (device : Device)
  deriving DecidableEq

/-- A place in the tree: the names on the way from the root. -/
abbrev Place := List String

structure FileSystem where
  /-- Everything below the root. -/
  nodes : List (Place × Node)
  workingDirectory : Place
  deriving DecidableEq

/-- A path as it is written. -/
structure Path where
  absolute : Bool
  /-- The names before the last. -/
  parents : List String
  last : Option String
  trailingSlash : Bool
  deriving DecidableEq

/-- Cuts a path at its slashes; several in a row count as one. -/
def Path.ofText (text : String) : Path :=
  let chars := text.toList
  let names := ((chars.splitOn '/').filter (!·.isEmpty)).map String.ofList
  { absolute := chars.head? == some '/'
    parents := names.dropLast
    last := names.getLast?
    trailingSlash := chars.getLast? == some '/' }

namespace FileSystem

/-- The longest name of a file, in bytes. -/
def maxNameLength : Nat := 255

/-- The longest path, in bytes. -/
def maxPathLength : Nat := 4095

def node? (fs : FileSystem) (place : Place) : Option Node :=
  if place.isEmpty then some .directory else fs.nodes.lookup place

/-- The node of that name in a directory. -/
def find? (fs : FileSystem) (directory : Place) (name : String) :
    Except FileError (Option Node) :=
  if maxNameLength < name.utf8ByteSize then .error .nameTooLong
  else .ok (fs.node? (directory ++ [name]))

/-- Walks from a directory through directories. The parent of the root is the root. -/
def walk (fs : FileSystem) (directory : Place) : List String → Except FileError Place
  | [] => .ok directory
  | "." :: rest => walk fs directory rest
  | ".." :: rest => walk fs directory.dropLast rest
  | name :: rest => do
    match ← fs.find? directory name with
    | some .directory => walk fs (directory ++ [name]) rest
    | some _ => .error .notDirectory
    | none => .error .notFound

/-- What a path names, before it is known whether that exists. -/
inductive Destination
  /-- A directory that the path has walked to. -/
  | directory (place : Place)
  | entry (directory : Place) (name : String) (trailingSlash : Bool)
  deriving DecidableEq

/-- Walks a path up to its last name. -/
def locate (fs : FileSystem) (text : String) : Except FileError Destination := do
  if text.isEmpty then
    .error .notFound
  else if maxPathLength < text.utf8ByteSize then
    .error .nameTooLong
  else
    let path := Path.ofText text
    let start := if path.absolute then [] else fs.workingDirectory
    let directory ← fs.walk start path.parents
    match path.last with
    | none => return .directory directory
    | some "." => return .directory directory
    | some ".." => return .directory directory.dropLast
    | some name => return .entry directory name path.trailingSlash

/-- Opens what a path leads to for reading. -/
def openNode (fs : FileSystem) (path : String) : Except FileError Node := do
  match ← fs.locate path with
  | .directory _ => return .directory
  | .entry directory name trailingSlash =>
    match ← fs.find? directory name with
    | none => throw .notFound
    | some .directory => return .directory
    | some node => if trailingSlash then throw .notDirectory else return node

/-- The tree in which a file with the given contents stands at `place`, all else being the same. -/
def put (fs : FileSystem) (place : Place) (contents : List UInt8) : FileSystem :=
  let others := fs.nodes.filter (·.1 != place)
  { fs with nodes := others ++ [(place, .file contents)] }

/-- Opens a path for writing. It leads to a file or a device, or to a place where nothing stands yet
and a file can. -/
def openForWriting (fs : FileSystem) (path : String) : Except FileError Place := do
  match ← fs.locate path with
  | .directory _ => throw .isDirectory
  | .entry _ _ true => throw .isDirectory
  | .entry directory name false =>
    match ← fs.find? directory name with
    | some .directory => throw .isDirectory
    | _ => return directory ++ [name]

/-- What is open at `place` after it has taken the data. A file is created unless it exists, and
nothing is left of what it held before. -/
def store (fs : FileSystem) (place : Place) (data : List UInt8) : FileSystem :=
  match fs.node? place with
  | some (.device _) => fs
  | _ => fs.put place data

/-! ## The files of a run -/

/-- The directories and devices that every machine has. -/
def systemNodes : List (Place × Node) :=
  ["bin", "boot", "dev", "etc", "home", "lib", "media", "mnt", "opt", "proc", "root", "run",
    "sbin", "srv", "sys", "tmp", "usr", "var"].map (fun name => ([name], .directory)) ++
  [(["dev", "null"], .device .null), (["dev", "full"], .device .full)]

/-- A machine whose working directory holds the given files and nothing else. That directory has
the empty name, which no path can spell. -/
def ofFiles (files : List (String × List UInt8)) : FileSystem :=
  let workingDirectory := ["tmp", ""]
  { nodes := systemNodes ++ [(workingDirectory, .directory)] ++
      files.map fun (name, contents) => (workingDirectory ++ [name], .file contents)
    workingDirectory }

/-- The files in the working directory. -/
def workingFiles (fs : FileSystem) : List (String × List UInt8) :=
  fs.nodes.filterMap fun (place, node) =>
    match place.getLast?, node with
    | some name, .file contents =>
      if place.dropLast == fs.workingDirectory then some (name, contents) else none
    | _, _ => none

/-- The files in the working directory that `before` does not have there. -/
def createdFiles (before after : FileSystem) : List (String × List UInt8) :=
  after.workingFiles.filter fun file => (before.workingFiles.lookup file.1).isNone

end FileSystem

end ByteAssembler.CommandLine
