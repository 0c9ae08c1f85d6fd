import FirmScan.Access.Registers
import FirmScan.Access.Remarks
import FirmScan.Access.Survey
import FirmScan.Address
import FirmScan.AddressMap
import FirmScan.CommandLine.Arguments
import FirmScan.CommandLine.Request
import FirmScan.CommandLine.Run
import FirmScan.Disassembler
import FirmScan.Disassembler.Interposed
import FirmScan.Error
import FirmScan.FileFault
import FirmScan.Folder
import FirmScan.Json
import FirmScan.Json.Printer
import FirmScan.Json.Quoted
import FirmScan.Json.Reader
import FirmScan.Json.Token
import FirmScan.JumpTable
import FirmScan.JumpTable.Label
import FirmScan.JumpTable.MachineRequest
import FirmScan.JumpTable.Scan
import FirmScan.JumpTable.Slot
import FirmScan.Listing.Line
import FirmScan.Listing.Mnemonic
import FirmScan.Listing.Operand
import FirmScan.Machine
import FirmScan.Machine.Sentinel
import FirmScan.Main
import FirmScan.Numeral
import FirmScan.Problem
import FirmScan.Report
import FirmScan.Report.Json
import FirmScan.Report.Plain
import FirmScan.Report.Tabular
import FirmScan.Snapshot
import FirmScan.Snapshot.Manifest
import FirmScan.Template
import FirmScan.Text.Blank
import FirmScan.Text.HexBytes
import FirmScan.Text.Quoted
import FirmScan.Text.Unprintable
import FirmScan.Proofs.Lists
import FirmScan.Proofs.AddressMap
import FirmScan.Proofs.Snapshot.Consistent
import FirmScan.Proofs.Snapshot.History
import FirmScan.Proofs.Snapshot.Growth
import FirmScan.Proofs.Snapshot.Reachable
import FirmScan.Proofs.Snapshot.Journal
import FirmScan.Proofs.Snapshot.Lookup
import FirmScan.Proofs.Snapshot.Memory
import FirmScan.Proofs.Snapshot.Writing
import FirmScan.Proofs.Text.HexBytes
import FirmScan.Proofs.Snapshot.Loading
import FirmScan.Proofs.JumpTable.Resolution
import FirmScan.Proofs.Disassembler.Recorded
import FirmScan.Proofs.JumpTable.Labelling
import FirmScan.Proofs.JumpTable.Stability
import FirmScan.Proofs.Access.Program
import FirmScan.Proofs.Numeral
import FirmScan.Proofs.Listing.Operand
import FirmScan.Proofs.Listing.Line
import FirmScan.Proofs.Listing.Decorated
import FirmScan.Proofs.Listing.Written
import FirmScan.Proofs.Access.Printed
import FirmScan.Proofs.Access.Refinement
import FirmScan.Proofs.Access.Provenance
import FirmScan.Proofs.Access.Loads
import FirmScan.Proofs.Access.Arrangement
import FirmScan.Proofs.Access.Census
import FirmScan.Proofs.JumpTable.Verdict
import FirmScan.Proofs.JumpTable.Scanning
import FirmScan.Proofs.JumpTable.Relabelling
import FirmScan.Proofs.Json.Lexing
import FirmScan.Proofs.Json.RoundTrip
import FirmScan.Proofs.Report.Json
import FirmScan.Proofs.Access.Annotating
import FirmScan.Proofs.Snapshot.Annotated
import FirmScan.Proofs.JumpTable.Preview
import FirmScan.Proofs.JumpTable.Naming
import FirmScan.Proofs.Template.Field
import FirmScan.Proofs.Template.Grammar
import FirmScan.Proofs.Template.Composition
import FirmScan.Proofs.Access.Literals
import FirmScan.Proofs.Address
import FirmScan.Proofs.Listing.Folded
import FirmScan.Proofs.Report.Table
import FirmScan.Proofs.Report.Record
import FirmScan.Proofs.Listing.Division
import FirmScan.Proofs.Listing.Scan
import FirmScan.Proofs.Access.Keys
