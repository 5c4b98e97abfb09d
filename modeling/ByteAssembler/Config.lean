/-
  Settings of an assembly run.
-/

namespace ByteAssembler

structure Config where
  /-- Bytes of program memory; an eight-bit address reaches 256 of them. -/
  memorySize : UInt16 := 256
  /-- Whether a warning makes the run fail. -/
  warningsAsErrors : Bool := false
  deriving DecidableEq

end ByteAssembler
