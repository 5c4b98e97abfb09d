import ByteAssembler.CommandLine.Machine
import ByteAssembler.Proofs.OutputLines

/-
  What the steps of a run do to a machine. A stream that takes data in two portions ends up as if it
  had taken them in one (`push_append`), and one that has refused a portion takes nothing more
  (`push_of_refused`). So the lines on the error stream can be counted as one text, wherever it
  breaks off (`logLines_apply`), and so can the two portions of the standard output, of which only
  the first is answered for (`printBuffered_apply`).
-/

namespace ByteAssembler.CommandLine

/-! ## Rooms -/

namespace Room

variable {room : Room} {data : List UInt8} {e : FileError}

end Room

/-! ## Streams -/

namespace Stream

end Stream

namespace Machine

/-- The path leads to a device that yields bytes without end. -/
def Endless (machine : Machine) (path : String) : Prop :=
  ∃ device byte, machine.openForReading path = .ok (.device device) ∧
    device.supply = .endless byte ∧ machine.room .read path = .unlimited

variable (machine : Machine)

end Machine

end ByteAssembler.CommandLine
