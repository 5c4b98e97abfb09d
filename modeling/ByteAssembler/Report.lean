import ByteAssembler.Assembly
import ByteAssembler.Listing
import ByteAssembler.Text.Json

/-
  Reports on an assembly run in one of four formats: raw machine code, one line of hexadecimal
  digits, a listing that ends with that line, or a JSON object.
-/

namespace ByteAssembler

/-- The formats of a report. -/
inductive Format
  | bin
  | hex
  | listing
  | json
  deriving DecidableEq

namespace Format

def all : List Format :=
  [.bin, .hex, .listing, .json]

def name : Format → String
  | .bin => "bin"
  | .hex => "hex"
  | .listing => "listing"
  | .json => "json"

def ofName? (text : String) : Option Format :=
  all.find? (·.name == text)

/-- The format to use: the one asked for, else raw bytes for a file and digits for a terminal. -/
def resolve (asked : Option Format) (toFile : Bool) : Format :=
  asked.getD (if toFile then .bin else .hex)

end Format

/-- What a report consists of. -/
inductive Content
  | raw (bytes : List UInt8)
  | text (contents : String)
  deriving DecidableEq

/-- The bytes that are written for a report. -/
def Content.bytes : Content → List UInt8
  | .raw bytes => bytes
  | .text contents => contents.toUTF8.data.toList

/-- The fields of the JSON report. -/
structure Summary where
  success : Bool
  diagnostics : List String
  bytes : List UInt8
  listing : List String
  deriving DecidableEq

/-- The JSON report, with a final line end. -/
def Summary.toJson (s : Summary) : String :=
  Text.Json.object 0
    [("success", Text.Json.bool s.success),
     ("diagnostics", Text.Json.array 1 (s.diagnostics.map Text.Json.string)),
     ("bytes", Text.Json.array 1 (s.bytes.map fun b => Text.Json.number b.toNat)),
     ("hex", Text.Json.string (Text.hexDump s.bytes)),
     ("listing", Text.Json.array 1 (s.listing.map Text.Json.string))] ++ "\n"

/-- Why a run has no report. -/
inductive ReportError
  | failedAssembly (errors : Nat)
  /-- The program refers to a label that its symbol table does not have. -/
  | unknownLabel
  deriving DecidableEq

def ReportError.message : ReportError → String
  | .failedAssembly errors => s!"assembly failed with {errors} error(s)"
  | .unknownLabel => "an operand refers to an unknown label"

namespace Assembly

/-- The report on a run, whether or not it succeeded; none if the program has no listing and the
format needs one. -/
def report? (a : Assembly) : Format → Option Content
  | .bin => some (.raw a.bytes)
  | .hex => some (.text (Text.hexDump a.bytes ++ "\n"))
  | .listing => (Listing.lines? a.program).map fun lines =>
    .text (String.join (lines.map (· ++ "\n")) ++ Text.hexDump a.bytes ++ "\n")
  | .json => (Listing.lines? a.program).map fun lines =>
    .text (Summary.toJson ⟨a.success, a.messages, a.bytes, lines⟩)

/-- The report on a run that succeeded. A failed run has none, and counts at least one error. -/
def emit (a : Assembly) (format : Format) : Except ReportError Content :=
  if a.success then
    match a.report? format with
    | some content => .ok content
    | none => .error .unknownLabel
  else .error (.failedAssembly (max a.errorCount 1))

end Assembly

end ByteAssembler
