import ByteAssembler.CommandLine.Session

/-
  The command-line tool on the operating system.
-/

namespace ByteAssembler.CommandLine

/-- The operating system's error behind a failed operation. -/
def fileErrorOf : IO.Error → FileError
  | .noFileOrDirectory _ code text => ⟨code.toNat, text⟩
  | .inappropriateType _ code text => ⟨code.toNat, text⟩
  | .permissionDenied _ code text => ⟨code.toNat, text⟩
  | .resourceExhausted _ code text => ⟨code.toNat, text⟩
  | e => ⟨5, toString e⟩

/-- What an operation gives, or the error that it fails with. -/
def outcome {α : Type} (action : IO α) : IO (Except FileError α) := do
  match ← action.toBaseIO with
  | .ok a => return .ok a
  | .error e => return .error (fileErrorOf e)

/-- Reads to the end; an error leaves what was read before it. -/
def readToEnd (handle : IO.FS.Handle) : IO (Except ReadError (List UInt8)) := do
  let mut contents := ByteArray.empty
  repeat
    match ← outcome (handle.read 4096) with
    | .error e => return .error (.reading contents.toList e)
    | .ok chunk =>
      if chunk.isEmpty then break
      contents := contents ++ chunk
  return .ok contents.toList

/-- The contents of the source. -/
def readSource (path : String) : IO (Except ReadError (List UInt8)) := do
  match ← outcome (IO.FS.Handle.mk path .read) with
  | .error e => return .error (.opening e)
  | .ok handle => readToEnd handle

/-- Writes the output file. -/
def writeOutput (path : String) (bytes : List UInt8) : IO Unit := do
  let handle ← IO.FS.Handle.mk path .write
  handle.write bytes.toByteArray
  handle.flush

/-- Writes to a stream and sees to it that nothing is left in a buffer. -/
def writeStream (stream : IO.FS.Stream) (bytes : ByteArray) : IO Unit := do
  stream.write bytes
  stream.flush

/-- The operations of the operating system. -/
def systemHost : Host IO where
  read := readSource
  write path bytes := outcome (writeOutput path bytes)
  print bytes := outcome do writeStream (← IO.getStdout) bytes.toByteArray
  log text := outcome do writeStream (← IO.getStderr) text.toUTF8

end ByteAssembler.CommandLine

def main (args : List String) : IO UInt32 :=
  ByteAssembler.CommandLine.run ByteAssembler.CommandLine.systemHost args
