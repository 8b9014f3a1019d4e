import PatternScan.CommandLine.Arguments
import PatternScan.CommandLine.Run
import PatternScan.Construct.History
import PatternScan.Main
import PatternScan.Pattern.Grammar
import PatternScan.Pattern.Language
import PatternScan.Report.JsonValue
import PatternScan.Report.Record
import PatternScan.Search.Event
import PatternScan.Search.Reference
import PatternScan.Simulate.Agenda
import PatternScan.Table.Equivalence
import PatternScan.Table.Grammar
import PatternScan.Table.Path
import PatternScan.Proofs.Visits
import PatternScan.Proofs.Bounds
import PatternScan.Proofs.Tiling
import PatternScan.Proofs.Faults
import PatternScan.Proofs.ExitCodes
import PatternScan.Proofs.Walk
import PatternScan.Proofs.Exploration
import PatternScan.Proofs.Leftmost
import PatternScan.Proofs.Denotation
import PatternScan.Proofs.Ends
import PatternScan.Proofs.Derivation
import PatternScan.Proofs.Acceptance
import PatternScan.Proofs.Literals
import PatternScan.Proofs.Size
import PatternScan.Proofs.Records
import PatternScan.Proofs.Reload
import PatternScan.Proofs.Recognition
import PatternScan.Proofs.Encoding
import PatternScan.Proofs.Stages
import PatternScan.Proofs.Reading
import PatternScan.Proofs.Delivery
import PatternScan.Proofs.EarlyStop
import PatternScan.Proofs.Equivalence
import PatternScan.Proofs.Reuse
import PatternScan.Proofs.Transfer
import PatternScan.Proofs.Connection
import PatternScan.Proofs.Account
import PatternScan.Proofs.JsonLines
import PatternScan.Proofs.Limits
import PatternScan.Proofs.Highlighting
import PatternScan.Proofs.Regrouping
import PatternScan.Proofs.Substring
import PatternScan.Proofs.LineEnds
import PatternScan.Proofs.LineBreaks
import PatternScan.Proofs.Lexing
import PatternScan.Proofs.Rows
import PatternScan.Proofs.Coloring
import PatternScan.Proofs.Listing
import PatternScan.Proofs.History
import PatternScan.Proofs.Frame
import PatternScan.Proofs.Agenda
