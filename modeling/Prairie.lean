import Prairie.CommandLine.Arguments
import Prairie.CommandLine.Clock
import Prairie.CommandLine.Command
import Prairie.CommandLine.Files
import Prairie.CommandLine.Listing
import Prairie.CommandLine.Respond
import Prairie.CommandLine.Usage
import Prairie.Console.Editor
import Prairie.Console.Execute
import Prairie.Console.Highlight
import Prairie.Console.Meta
import Prairie.Console.Mode
import Prairie.Console.Response
import Prairie.Console.Script
import Prairie.Machine.Basic
import Prairie.Machine.Context
import Prairie.Machine.Fault
import Prairie.Machine.Run
import Prairie.Machine.Table
import Prairie.Machine.Tape
import Prairie.Main
import Prairie.Report.Diagnosis
import Prairie.Report.Dump
import Prairie.Report.Excerpt
import Prairie.Settings.Basic
import Prairie.Settings.File
import Prairie.Settings.Resolve
import Prairie.Source.Program
import Prairie.Source.Scanner
import Prairie.Source.Token
import Prairie.Text.Blank
import Prairie.Text.Column
import Prairie.Text.Cut
import Prairie.Text.Extending
import Prairie.Text.Lines
import Prairie.Text.Numeral
import Prairie.Text.Offset
import Prairie.Text.Printable
import Prairie.Text.Quoted
import Prairie.Text.Ranges
import Prairie.Proofs.Machine.Brackets
import Prairie.Proofs.Machine.Flat
import Prairie.Proofs.Machine.Simulation
import Prairie.Proofs.Machine.Trail
import Prairie.Proofs.Machine.Nesting
import Prairie.Proofs.Machine.History
import Prairie.Proofs.Machine.Limit
import Prairie.Proofs.Machine.Watching
import Prairie.Proofs.Machine.Pairing
import Prairie.Proofs.Machine.Bounds
import Prairie.Proofs.Machine.Commentary
import Prairie.Proofs.Source.Occurrence
import Prairie.Proofs.Source.Scan
import Prairie.Proofs.Source.Slices
import Prairie.Proofs.Source.Canonical
import Prairie.Proofs.Source.Tiling
import Prairie.Proofs.Source.Outskirts
import Prairie.Proofs.Source.FirstBreak
import Prairie.Proofs.Report.Caret
import Prairie.Proofs.Console.Execution
import Prairie.Proofs.Console.Bare
import Prairie.Proofs.Machine.Printed
import Prairie.Proofs.Machine.Rows
import Prairie.Proofs.Machine.Afresh
import Prairie.Proofs.Text.Numeral
import Prairie.Proofs.Settings.Section
import Prairie.Proofs.Settings.Precedence
import Prairie.Proofs.Console.Recall
import Prairie.Proofs.Machine.LongerTape
import Prairie.Proofs.Machine.Cancel
import Prairie.Proofs.Machine.Depth
import Prairie.Proofs.Machine.Returning
import Prairie.Proofs.Machine.Sequence
import Prairie.Proofs.Source.Resuming
import Prairie.Proofs.Source.Insertion
import Prairie.Proofs.Console.Lines
import Prairie.Proofs.Source.Joining
import Prairie.Proofs.Console.Assembly
import Prairie.Proofs.Report.Window
import Prairie.Proofs.Console.Segments
import Prairie.Proofs.Settings.LastValid
import Prairie.Proofs.Text.Legible
import Prairie.Proofs.Text.Quoted
import Prairie.Proofs.CommandLine.Listing
import Prairie.Proofs.Report.Cells
import Prairie.Proofs.Console.Submissions
import Prairie.Proofs.Console.Once
import Prairie.Proofs.Console.ColonLines
