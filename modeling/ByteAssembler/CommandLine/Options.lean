import ByteAssembler.Report

/-
  Command-line options. The arguments are read from left to right: a fault ends the reading, and
  so does a request for the version if everything before it was right. A value stands in its own
  argument, or is attached to its option after an equals sign or, for a one-letter option,
  directly. No option may be given twice.
-/

namespace ByteAssembler.CommandLine

/-- What a run is asked to do. -/
structure Options where
  source : String
  output : Option String := none
  format : Option Format := none
  config : Config := {}
  deriving DecidableEq

inductive Request
  | version
  | assemble (options : Options)
  deriving DecidableEq

/-- The options that take a value. -/
inductive Setting
  | output
  | format
  | memorySize
  deriving DecidableEq

/-- What one argument says by itself. -/
inductive Argument
  | plain (text : String)
  | setting (setting : Setting) (attached : Option String)
  | warningsAsErrors
  | version
  | endOfOptions
  | unknown
  deriving DecidableEq

namespace Argument

/-- An option spelled out after two hyphens, with or without `=value`. -/
def ofLong (text : List Char) : Argument :=
  let name := String.ofList (text.takeWhile (· != '='))
  let attached := match text.dropWhile (· != '=') with
    | _ :: value => some (String.ofList value)
    | [] => none
  match name, attached with
  | "output", attached => .setting .output attached
  | "format", attached => .setting .format attached
  | "memory-size", attached => .setting .memorySize attached
  | "warnings-as-errors", none => .warningsAsErrors
  | "version", none => .version
  | _, _ => .unknown

/-- One-letter options after one hyphen. -/
def ofShort : List Char → Argument
  | ['o'] => .setting .output none
  | 'o' :: '=' :: value => .setting .output (some (String.ofList value))
  | 'o' :: value => .setting .output (some (String.ofList value))
  | 'V' :: _ => .version
  | _ => .unknown

def ofText (text : String) : Argument :=
  match text.toList with
  | ['-', '-'] => .endOfOptions
  | '-' :: '-' :: long => ofLong long
  | ['-'] => .plain text
  | '-' :: short => ofShort short
  | _ => .plain text

end Argument

/-- The options met so far. -/
structure Draft where
  source : Option String := none
  output : Option String := none
  format : Option Format := none
  memorySize : Option UInt16 := none
  warningsAsErrors : Bool := false

namespace Draft

/-- A path must not be empty. -/
def path? (text : String) : Option String :=
  if text.isEmpty then none else some text

/-- A decimal number of at most sixteen bits, with an optional sign. -/
def memorySize? (text : String) : Option UInt16 := do
  let (limit, digits) := match text.toList with
    | '+' :: digits => (0xFFFF, digits)
    | '-' :: digits => (0, digits)
    | digits => (0xFFFF, digits)
  let n ← ByteLiteral.magnitude? 10 digits
  if n ≤ limit then some (UInt16.ofNat n) else none

/-- Adds the source, of which there is one. -/
def addSource (d : Draft) (text : String) : Option Draft := do
  let source ← path? text
  if d.source.isSome then none else some { d with source }

/-- Adds an option with its value. -/
def addSetting (d : Draft) (setting : Setting) (text : String) : Option Draft :=
  match setting with
  | .output => do
    let output ← path? text
    if d.output.isSome then none else some { d with output }
  | .format => do
    let format ← Format.ofName? text
    if d.format.isSome then none else some { d with format }
  | .memorySize => do
    let memorySize ← memorySize? text
    if d.memorySize.isSome then none else some { d with memorySize }

def addWarningsAsErrors (d : Draft) : Option Draft :=
  if d.warningsAsErrors then none else some { d with warningsAsErrors := true }

/-- The finished options; a source has to be among them. -/
def finish (d : Draft) : Option Request := do
  let source ← d.source
  let memorySize := d.memorySize.getD ({} : Config).memorySize
  return .assemble ⟨source, d.output, d.format, ⟨memorySize, d.warningsAsErrors⟩⟩

end Draft

/-- Reads the arguments after those that `d` holds; none if they are misused. -/
def parseFrom (d : Draft) : List String → Option Request
  | [] => d.finish
  | text :: rest =>
    match Argument.ofText text with
    | .plain source => do parseFrom (← d.addSource source) rest
    | .setting setting (some value) => do parseFrom (← d.addSetting setting value) rest
    | .setting setting none =>
      match rest with
      | [] => none
      | next :: rest =>
        match Argument.ofText next with
        | .plain value => do parseFrom (← d.addSetting setting value) rest
        | _ => none
    | .warningsAsErrors => do parseFrom (← d.addWarningsAsErrors) rest
    | .version => some .version
    | .endOfOptions => do (← rest.foldlM Draft.addSource d).finish
    | .unknown => none

/-- The request that the arguments make; none if they are misused. -/
def parse (args : List String) : Option Request :=
  parseFrom {} args

end ByteAssembler.CommandLine
