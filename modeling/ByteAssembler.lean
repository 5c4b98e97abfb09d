import ByteAssembler.Assembly
import ByteAssembler.ByteLiteral
import ByteAssembler.CommandLine.FileSystem
import ByteAssembler.CommandLine.Options
import ByteAssembler.CommandLine.Session
import ByteAssembler.Config
import ByteAssembler.Diagnostic
import ByteAssembler.Isa.Family
import ByteAssembler.Isa.Mnemonic
import ByteAssembler.Isa.Register
import ByteAssembler.Line
import ByteAssembler.Listing
import ByteAssembler.MachineCode
import ByteAssembler.Main
import ByteAssembler.Operand
import ByteAssembler.Program
import ByteAssembler.Proofs.Encoding
import ByteAssembler.Proofs.Layout
import ByteAssembler.Proofs.Reading
import ByteAssembler.Proofs.Run
import ByteAssembler.Proofs.Symbols
import ByteAssembler.Proofs.Verdict
import ByteAssembler.Report
import ByteAssembler.Scan
import ByteAssembler.Statement
import ByteAssembler.SymbolTable
import ByteAssembler.Text.Blank
import ByteAssembler.Text.Case
import ByteAssembler.Text.Hex
import ByteAssembler.Text.Json
import ByteAssembler.Text.Lines
import ByteAssembler.Text.Word
import ByteAssembler.Proofs.EncoderContract
import ByteAssembler.Proofs.Statements
import ByteAssembler.Proofs.TwoPass
import ByteAssembler.Proofs.DiagnosticOrder
import ByteAssembler.Proofs.Words
import ByteAssembler.Proofs.FaultIsolation
import ByteAssembler.Proofs.Acceptance
import ByteAssembler.Proofs.Decoding
import ByteAssembler.Proofs.Extension
import ByteAssembler.Proofs.Meaning
import ByteAssembler.Proofs.TableContents
import ByteAssembler.Proofs.Outcome
import ByteAssembler.Proofs.Correspondence
import ByteAssembler.Proofs.Renaming
import ByteAssembler.Proofs.Respelling
import ByteAssembler.Proofs.ByteLines
import ByteAssembler.Proofs.ListingText
import ByteAssembler.Proofs.Bindings
import ByteAssembler.Proofs.Reconstruction
import ByteAssembler.Proofs.Recognition
import ByteAssembler.Proofs.Literals
import ByteAssembler.Proofs.Addresses
import ByteAssembler.Proofs.Positions
import ByteAssembler.Proofs.Reports
import ByteAssembler.Proofs.Duplicates
import ByteAssembler.Proofs.Redundancy
import ByteAssembler.Proofs.EncodingFaults
import ByteAssembler.Proofs.LateReports
import ByteAssembler.Proofs.ReportOrder
import ByteAssembler.Proofs.MemoryEnd
import ByteAssembler.Proofs.TableCalls
import ByteAssembler.Proofs.OneLine
import ByteAssembler.Proofs.OutputLines
import ByteAssembler.Proofs.JsonReport
import ByteAssembler.Proofs.FileTree
import ByteAssembler.Proofs.SessionOutcome
import ByteAssembler.CommandLine.Machine
import ByteAssembler.Proofs.MachineRuns
