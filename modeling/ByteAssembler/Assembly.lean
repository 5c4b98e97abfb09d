import ByteAssembler.MachineCode
import ByteAssembler.Scan
import ByteAssembler.Text.Lines

/-
  Assembly runs. A source text is scanned as a whole, and encoded only if no diagnostic stands
  against it; otherwise there are diagnostics and no bytes. A source given as bytes is decoded as a
  whole, or line by line as the scan comes to it (`assembleStream`).
-/

namespace ByteAssembler

/-- The result of an assembly run. -/
structure Assembly where
  diagnostics : List Diagnostic
  success : Bool
  /-- The machine code; empty unless the run succeeded. -/
  bytes : List UInt8
  program : Program
  deriving DecidableEq

/-- Why a run has no result at all. -/
inductive AssembleError
  /-- A line of the source is not UTF-8. -/
  | invalidText
  | encoding (error : EncodeError)
  deriving DecidableEq

namespace AssembleError

/-- What lies behind the error. -/
def cause : AssembleError → String
  | .invalidText => "stream did not contain valid UTF-8"
  | .encoding error => error.message

def message (e : AssembleError) : String :=
  match e with
  | .invalidText => s!"failed to read source: {e.cause}"
  | .encoding _ => s!"internal encoder error: {e.cause}"

end AssembleError

namespace Assembly

/-- The diagnostics as they are shown to the user. -/
def messages (a : Assembly) : List String :=
  a.diagnostics.map (·.message)

def errorCount (a : Assembly) : Nat :=
  a.diagnostics.countP (·.isError)

/-- Encodes what a scan found. -/
def ofScanned (s : Scanned) : Except AssembleError Assembly :=
  if s.failed then .ok ⟨s.diagnostics, false, [], s.program⟩
  else
    match MachineCode.encode s.program with
    | .ok bytes => .ok ⟨s.diagnostics, true, bytes, s.program⟩
    | .error e => .error (.encoding e)

end Assembly

/-- Assembles a list of source lines. -/
def assembleLines (config : Config) (lines : List String) : Except AssembleError Assembly :=
  Assembly.ofScanned (scan config lines)

/-- Assembles a source text. -/
def assemble (config : Config) (source : String) : Except AssembleError Assembly :=
  assembleLines config (Text.lines source)

/-- Assembles a source given as bytes, whose lines have to be UTF-8. -/
def assembleBytes (config : Config) (source : List UInt8) : Except AssembleError Assembly :=
  match Text.linesOfBytes? source with
  | some lines => assembleLines config lines
  | none => .error .invalidText

/-- The state after one more line, given as bytes; one that is not UTF-8 ends the scan. -/
def Scan.feedBytes (config : Config) (s : Scan) (line : List UInt8) : Except AssembleError Scan :=
  match String.fromUTF8? line.toByteArray with
  | some text => .ok (feed config s (Line.read text))
  | none => .error .invalidText

/-- Assembles bytes line by line, with only the current line decoded. -/
def assembleStream (config : Config) (source : List UInt8) : Except AssembleError Assembly := do
  let s ← (Text.splitLines 0x0A 0x0D source).foldlM (Scan.feedBytes config) {}
  Assembly.ofScanned (s.finish config)

end ByteAssembler
