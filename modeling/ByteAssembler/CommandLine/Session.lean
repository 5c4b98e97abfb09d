import ByteAssembler.CommandLine.FileSystem
import ByteAssembler.CommandLine.Options

/-
  Runs of the command-line tool. A run reads the source, shows its diagnostics on the error
  stream, and delivers one report to the output file or to the standard output; a run that fails
  before that delivers nothing. All that it does to the world goes through a `Host`, so one and the
  same program runs on the operating system and on a model of it.
-/

namespace ByteAssembler.CommandLine

/-- Why a file cannot be read: it cannot be opened, or it is open and an error comes up after the
bytes `before`. -/
inductive ReadError
  | opening (error : FileError)
  | reading (before : List UInt8) (error : FileError)
  deriving DecidableEq

/-- What a run can do. The two streams are written to as they are, without a buffer. -/
structure Host (m : Type → Type) where
  read : String → m (Except ReadError (List UInt8))
  write : String → List UInt8 → m (Except FileError Unit)
  /-- Writes to the standard output. -/
  print : List UInt8 → m (Except FileError Unit)
  /-- Writes to the error stream. -/
  log : String → m (Except FileError Unit)

/-! ## Failures -/

/-- Why a run fails. -/
structure Failure where
  message : String
  cause : Option String := none
  deriving DecidableEq

/-- The failure as it is shown to the user. -/
def Failure.text (f : Failure) : String :=
  let cause := match f.cause with
    | some cause => s!"\nCaused by:\n    {cause}\n"
    | none => ""
  s!"Error: {f.message}\n" ++ cause

def Failure.ofAssembleError (e : AssembleError) : Failure :=
  ⟨e.message, some e.cause⟩

/-- Where the report of a run goes. -/
inductive Sink
  | stdout
  | file (path : String)
  deriving DecidableEq

def Options.sink (options : Options) : Sink :=
  match options.output with
  | none => .stdout
  | some path => .file path

/-- The failure to deliver a report. -/
def Sink.failure : Sink → FileError → Failure
  | .stdout, e => ⟨e.message, none⟩
  | .file path, e => ⟨s!"could not write {path}", some e.message⟩

/-! ## What is delivered -/

/-- Assembles what reading the source gave. A line that is not text ends the reading before an
error that comes up behind it. -/
def assembleSource (options : Options) (source : Except ReadError (List UInt8)) :
    Except Failure Assembly :=
  match source with
  | .error (.opening e) => .error ⟨s!"could not open {options.source}", some e.message⟩
  | .error (.reading before e) =>
    match Text.linesOfBytes? (Text.completeLines before) with
    | none => .error (.ofAssembleError .invalidText)
    | some _ => .error ⟨s!"failed to read source: {e.message}", some e.message⟩
  | .ok contents => (assembleBytes options.config contents).mapError .ofAssembleError

/-- The bytes of the report that the options ask for. -/
def reportBytes (options : Options) (a : Assembly) : Except Failure (List UInt8) :=
  match a.emit (Format.resolve options.format options.output.isSome) with
  | .ok content => .ok content.bytes
  | .error e => .error ⟨e.message, none⟩

/-! ## Streams -/

/-- The diagnostics of a run as they stand on the error stream, one a line. -/
def diagnosticLines (a : Assembly) : String :=
  String.join (a.messages.map (· ++ "\n"))

/-- The outcome of writing to a standard stream as the run is told of it. A stream that was not
opened for writing loses the data, and nobody is told. -/
def unlessClosed : Except FileError Unit → Except FileError Unit
  | .error e => if e.code = FileError.badDescriptor.code then .ok () else .error e
  | .ok _ => .ok ()

/-- The length from which on an unfinished line is not held back by the standard output. -/
def lineBufferSize : Nat := 1024

/-- What the standard output passes on at once: everything, or only the complete lines. -/
def passedOn (data : List UInt8) : List UInt8 :=
  if (Text.unfinishedLine data).length < lineBufferSize then Text.completeLines data else data

/-- What the standard output holds back until the run ends. -/
def heldBack (data : List UInt8) : List UInt8 :=
  if (Text.unfinishedLine data).length < lineBufferSize then Text.unfinishedLine data else []

/-! ## The run -/

namespace Host

variable {m : Type → Type} [Monad m] (host : Host m)

/-- Shows lines on the error stream, one after another, up to the first that is refused. -/
def logLines : List String → m (Except FileError Unit)
  | [] => return .ok ()
  | line :: rest => do
    match unlessClosed (← host.log (line ++ "\n")) with
    | .error e => return .error e
    | .ok _ => logLines rest

/-- Writes data to the standard output. What is held back is written when the run ends; then it is
too late to tell whether that succeeds. -/
def printBuffered (data : List UInt8) : m (Except FileError Unit) := do
  match unlessClosed (← host.print (passedOn data)) with
  | .error e => return .error e
  | .ok _ =>
    let _ ← host.print (heldBack data)
    return .ok ()

def deliver : Sink → List UInt8 → m (Except FileError Unit)
  | .stdout, data => host.printBuffered data
  | .file path, data => host.write path data

/-- Shows why the run fails, and gives the exit code for it. -/
def fail (failure : Failure) : m UInt32 := do
  let _ ← host.log failure.text
  return 1

end Host

/-- The exit code of a run that cannot show its diagnostics. -/
def mutedCode : UInt32 := 101

/-- Runs with the given options, up to the exit code. -/
def runOptions {m : Type → Type} [Monad m] (host : Host m) (options : Options) : m UInt32 := do
  match assembleSource options (← host.read options.source) with
  | .error failure => host.fail failure
  | .ok assembly =>
    match ← host.logLines assembly.messages with
    | .error _ => return mutedCode
    | .ok _ =>
      match reportBytes options assembly with
      | .error failure => host.fail failure
      | .ok data =>
        match ← host.deliver options.sink data with
        | .error e => host.fail (options.sink.failure e)
        | .ok _ => return 0

/-- Name and version of the tool. -/
def versionText : String :=
  "asm8-cli 0.1.0\n"

/-- How the tool is called. -/
def usageText : String :=
  "usage: [-o FILE] [--format bin|hex|listing|json] [--memory-size N] " ++
    "[--warnings-as-errors] SOURCE\n"

/-- Runs with the given arguments. -/
def run {m : Type → Type} [Monad m] (host : Host m) (args : List String) : m UInt32 := do
  match parse args with
  | none =>
    let _ ← host.log usageText
    return 2
  | some .version =>
    let _ ← host.print (Content.text versionText).bytes
    return 0
  | some (.assemble options) => runOptions host options

end ByteAssembler.CommandLine
