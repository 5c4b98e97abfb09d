import ByteAssembler.CommandLine.Session

/-
  Machines that runs can be carried out on. Beside the tree of files a machine has two streams,
  and it may refuse whatever it is asked to do: a path may not be opened for reasons other than the
  tree, reading may break off, and files and streams may take only part of the data. A run that
  reads a source without end has no result.
-/

namespace ByteAssembler.CommandLine

/-- A stream that is written to: what it has taken, and how much it will still take. -/
structure Stream where
  written : List UInt8 := []
  room : Room := .unlimited
  deriving DecidableEq

/-- The stream after it has taken what it can of the data. -/
def Stream.push (s : Stream) (data : List UInt8) : Stream :=
  ⟨s.written ++ s.room.pass data, s.room.after data⟩

inductive Access
  | read
  | write
  deriving DecidableEq

structure Machine where
  files : FileSystem
  /-- Why a path cannot be opened although the tree has nothing against it. -/
  denied : Access → String → Option FileError := fun _ _ => none
  /-- How much can be read from a path, and how much a file at a path can hold. -/
  room : Access → String → Room := fun _ _ => .unlimited
  stdout : Stream := {}
  stderr : Stream := {}

namespace Machine

/-- Whether a path may be opened. -/
def permit (machine : Machine) (access : Access) (path : String) : Except FileError Unit :=
  match machine.denied access path with
  | some e => .error e
  | none => .ok ()

def openForReading (machine : Machine) (path : String) : Except FileError Node := do
  let node ← machine.files.openNode path
  machine.permit .read path
  return node

def openForWriting (machine : Machine) (path : String) : Except FileError Place := do
  let place ← machine.files.openForWriting path
  machine.permit .write path
  return place

/-- What reading gives, with room for as many bytes; none if there is no end to it. -/
def readSupply (room : Room) : Supply → Option (Except ReadError (List UInt8))
  | .ends contents =>
    match room.check contents with
    | .ok _ => some (.ok contents)
    | .error e => some (.error (.reading (room.pass contents) e))
  | .endless byte =>
    match room with
    | .unlimited => none
    | .limited bytes e => some (.error (.reading (List.replicate bytes byte) e))

/-- The contents of a file. A directory can be opened, but not read. -/
def read (machine : Machine) (path : String) : Option (Except ReadError (List UInt8)) :=
  match machine.openForReading path with
  | .error e => some (.error (.opening e))
  | .ok .directory => some (.error (.reading [] .isDirectory))
  | .ok (.file contents) => readSupply (machine.room .read path) (.ends contents)
  | .ok (.device device) => readSupply (machine.room .read path) device.supply

/-- The room for data at a path that was opened at `place`. -/
def roomAt (machine : Machine) (path : String) (place : Place) : Room :=
  match machine.files.node? place with
  | some (.device device) => device.room
  | _ => machine.room .write path

/-- Opens a path and writes to what it leads to. A file is emptied when it is opened, and then
takes as much of the data as there is room for. -/
def write (machine : Machine) (path : String) (data : List UInt8) :
    Except FileError Unit × Machine :=
  match machine.openForWriting path with
  | .error e => (.error e, machine)
  | .ok place =>
    let room := machine.roomAt path place
    (room.check data, { machine with files := machine.files.store place (room.pass data) })

/-- Writes to the standard output. -/
def print (machine : Machine) (data : List UInt8) : Except FileError Unit × Machine :=
  (machine.stdout.room.check data, { machine with stdout := machine.stdout.push data })

/-- Writes to the error stream. -/
def log (machine : Machine) (text : String) : Except FileError Unit × Machine :=
  let data := (Content.text text).bytes
  (machine.stderr.room.check data, { machine with stderr := machine.stderr.push data })

/-- Runs act on machines through these operations. -/
def host : Host (StateT Machine Option) where
  read path := fun machine => (machine.read path).map fun result => (result, machine)
  write path data := fun machine => some (machine.write path data)
  print data := fun machine => some (machine.print data)
  log text := fun machine => some (machine.log text)

/-- The exit code of a run and the machine after it; none if the run does not end. -/
def run (machine : Machine) (options : Options) : Option (UInt32 × Machine) :=
  runOptions host options machine

end Machine

end ByteAssembler.CommandLine
