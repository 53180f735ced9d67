import ModuleRepair.Main
import ModuleRepair.Proofs.Distinct
import ModuleRepair.Proofs.Text.Front
import ModuleRepair.Proofs.Text.Trim
import ModuleRepair.Proofs.Import.WellFormed
import ModuleRepair.Proofs.Script.Reading
import ModuleRepair.Proofs.Script.ImportClause
import ModuleRepair.Proofs.Script.ImportStatement
import ModuleRepair.Proofs.Script.RoundTrip
import ModuleRepair.Proofs.Import.Binding
import ModuleRepair.Proofs.SourceFile.Reread
import ModuleRepair.Proofs.SourceFile.ImportLines
import ModuleRepair.Proofs.Import.Order
import ModuleRepair.Proofs.SourceFile.Merge
import ModuleRepair.Proofs.SourceFile.Organize
import ModuleRepair.Proofs.Diagnostic.Classify
import ModuleRepair.Proofs.Diagnostic.Messages
import ModuleRepair.Proofs.BuildLog.Log
import ModuleRepair.Proofs.Diagnostic.Report
import ModuleRepair.Proofs.Diagnostic.Printed
import ModuleRepair.Proofs.Diagnostic.Convert
import ModuleRepair.Proofs.Diagnostic.FixFile
import ModuleRepair.Proofs.Path
import ModuleRepair.Proofs.Disk
import ModuleRepair.Proofs.Preprocess.Files
import ModuleRepair.Proofs.Run.Phase
import ModuleRepair.Proofs.Run.Atomic
import ModuleRepair.Proofs.Project.Order
import ModuleRepair.Proofs.Project.Evolve
import ModuleRepair.Proofs.SourceFile.Edited
import ModuleRepair.Proofs.Diagnostic.Edited
import ModuleRepair.Proofs.Import.Clause
import ModuleRepair.Proofs.SourceFile.Rewriting
import ModuleRepair.Proofs.Run.Clauses
import ModuleRepair.Proofs.Script.Offer
import ModuleRepair.Proofs.Export.Normalize
import ModuleRepair.Proofs.Diagnostic.Independent
import ModuleRepair.Proofs.Run.Batches
import ModuleRepair.Proofs.Path.Normal
import ModuleRepair.Proofs.Specifier
import ModuleRepair.Proofs.Export.Surface
import ModuleRepair.Proofs.Export.History
import ModuleRepair.Proofs.Export.Listing
import ModuleRepair.Proofs.Path.Last
import ModuleRepair.Proofs.Disk.Rewrites
import ModuleRepair.Proofs.Run.Kept
import ModuleRepair.Proofs.Run.Writes
import ModuleRepair.Proofs.Diagnostic.Applies
import ModuleRepair.Proofs.Diagnostic.Sequence
import ModuleRepair.Proofs.Diagnostic.Lasting
import ModuleRepair.Proofs.Diagnostic.Again
import ModuleRepair.Proofs.Settings.Layers
import ModuleRepair.Proofs.Settings.Precedence
import ModuleRepair.Proofs.CommandLine.Exit
import ModuleRepair.Proofs.Project.Load
import ModuleRepair.Proofs.Project.Resolve
import ModuleRepair.Proofs.Script.Forward
import ModuleRepair.Proofs.SourceFile.Layout
import ModuleRepair.Proofs.Diagnostic.Gaps
import ModuleRepair.Proofs.Repair.Books
import ModuleRepair.Proofs.Repair.Passes
import ModuleRepair.Proofs.Run.Books
import ModuleRepair.Proofs.Import.Switch
import ModuleRepair.Proofs.Import.Inverse
import ModuleRepair.Proofs.BuildLog.Consumers
import ModuleRepair.Proofs.BuildLog.Reported
import ModuleRepair.Proofs.SourceFile.Settle
import ModuleRepair.Proofs.SourceFile.TypeOnly
import ModuleRepair.Proofs.Run.TypeOnly
import ModuleRepair.Proofs.Project.Tail
import ModuleRepair.Proofs.Diagnostic.Meant
import ModuleRepair.Proofs.Preprocess.Fences
import ModuleRepair.Proofs.Preprocess.Directive
import ModuleRepair.Proofs.Preprocess.Text
import ModuleRepair.Proofs.SourceFile.OneByOne
import ModuleRepair.Proofs.Project.SamePaths
import ModuleRepair.Proofs.Repair.Sweep
import ModuleRepair.Proofs.BuildLog.Complete
import ModuleRepair.Proofs.Export.Importers
import ModuleRepair.Proofs.Text.Slice
import ModuleRepair.Proofs.Script.Fuel
import ModuleRepair.Proofs.Script.Tokens
import ModuleRepair.Proofs.Script.Heights
import ModuleRepair.Proofs.Script.Moved
import ModuleRepair.Proofs.Script.Gaps
import ModuleRepair.Proofs.Script.Ends
import ModuleRepair.Proofs.Script.Sits
import ModuleRepair.Proofs.Script.Opening
import ModuleRepair.Proofs.Text.Bytes
import ModuleRepair.Proofs.SourceFile.WholeLines
import ModuleRepair.Proofs.SourceFile.Margin
import ModuleRepair.Proofs.SourceFile.Spans
import ModuleRepair.Proofs.SourceFile.Around
import ModuleRepair.Proofs.SourceFile.Removal
import ModuleRepair.Proofs.BuildLog.Packages
import ModuleRepair.Proofs.Diagnostic.Additions
import ModuleRepair.Proofs.Script.Attributes
import ModuleRepair.Proofs.Script.Insertion
import ModuleRepair.Proofs.SourceFile.Addition
import ModuleRepair.Proofs.SourceFile.LineEnds
import ModuleRepair.Proofs.Path.Joined
import ModuleRepair.Proofs.Disk.Tree
import ModuleRepair.Proofs.Disk.Filling
import ModuleRepair.Proofs.Project.Keys
import ModuleRepair.Proofs.Project.Save
import ModuleRepair.Proofs.Project.Indexed
import ModuleRepair.Proofs.Project.Alias
import ModuleRepair.Proofs.Diagnostic.CorrectPath
import ModuleRepair.Proofs.Disk.Overlay
import ModuleRepair.Preprocess.Pool
import ModuleRepair.Proofs.Preprocess.Pool
import ModuleRepair.Proofs.Preprocess.Passes
import ModuleRepair.Proofs.Repair.Oblivious
import ModuleRepair.Proofs.Run.Oblivious
import ModuleRepair.Proofs.Run.Processed
import ModuleRepair.Proofs.Run.Repeated
import ModuleRepair.Proofs.Script.Nodes
import ModuleRepair.Proofs.Script.Walk
import ModuleRepair.Proofs.Import.Canonical
import ModuleRepair.Proofs.Specifier.Segments
