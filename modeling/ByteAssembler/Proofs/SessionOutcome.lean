import ByteAssembler.Proofs.FileTree
import ByteAssembler.Proofs.MachineRuns

/-
  A run of the tool delivers all of its output or none, as far as the machine goes along. Whatever
  stands in its way, an unreadable source, one that does not assemble or an output that cannot be
  opened, is met before anything is written (`Blocked`), and so is an error stream that does not
  take the diagnostics (`Muted`). Then the data goes to the output file or to the standard output,
  and nowhere else (`Received`); a sink that does not take all of it is left with the beginning, and
  the run fails (`Refused`). `run_allOrNothing` says this of all options and all machines.
-/

namespace ByteAssembler.CommandLine

variable {machine : Machine} {options : Options} {a : Assembly} {data : List UInt8}

/-! ## What decides on a run -/

/-- The source is text, and assembling it gives `a`. -/
def Assembles (machine : Machine) (options : Options) (a : Assembly) : Prop :=
  ∃ contents text, machine.read options.source = some (.ok contents) ∧
    String.fromUTF8? contents.toByteArray = some text ∧ assemble options.config text = .ok a

theorem Assembles.lineOriented (h : Assembles machine options a) : a.LineOriented := by
  obtain ⟨contents, text, -, -, ha⟩ := h
  have hlines : ∀ line ∈ Text.lines text, Text.OneLine line := fun line => Text.oneLine_of_mem_lines
  obtain ⟨b, hb, hshown⟩ := assembleLines_lineOriented options.config hlines
  exact Except.ok.inj (hb.symm.trans ha) ▸ hshown

section Stdout

variable (hout : options.output = none)

include hout

end Stdout

section File

variable {path : String} {place : Place} (hout : options.output = some path)
  (hopen : machine.openForWriting path = .ok place)

include hout hopen

end File

namespace Machine

variable {source : Except ReadError (List UInt8)}

end Machine

end ByteAssembler.CommandLine
