import DefaultImports.Main
import DefaultImports.Pattern.Ends
import DefaultImports.Proofs.Cache.Eviction
import DefaultImports.Proofs.Cache.Invariant
import DefaultImports.Proofs.Check.Report
import DefaultImports.Proofs.Check.Footprint
import DefaultImports.Proofs.Settings.Source
import DefaultImports.Proofs.CommandLine.Severity
import DefaultImports.Proofs.Settings.Precedence
import DefaultImports.Proofs.Pattern.Ends
import DefaultImports.Proofs.Pattern.Search
import DefaultImports.Proofs.Binding.Grammar
import DefaultImports.Proofs.Binding.Statement
import DefaultImports.Proofs.Binding.Scan
import DefaultImports.Proofs.Surface.Grammar
import DefaultImports.Proofs.Surface.Entries
import DefaultImports.Proofs.Surface.Names
import DefaultImports.Proofs.Text.Utf8
import DefaultImports.Proofs.Check.LineEndings
import DefaultImports.Proofs.Pattern.Extension
import DefaultImports.Proofs.Check.Repair
import DefaultImports.Proofs.SourceFiles.Search
import DefaultImports.Proofs.Check.Selection
import DefaultImports.Proofs.Check.Outcome
import DefaultImports.Proofs.Check.JsonReport
import DefaultImports.Proofs.Binding.Position
import DefaultImports.Proofs.Check.Spelling
import DefaultImports.Proofs.Settings.Faults
import DefaultImports.Proofs.Check.Repetition
import DefaultImports.Proofs.Check.Accounting
import DefaultImports.Proofs.FileFilter.Exclusion
import DefaultImports.Proofs.Check.Directories
import DefaultImports.Proofs.Ignore.Failure
import DefaultImports.Proofs.SourceFiles.Failure
import DefaultImports.Proofs.SourceFiles.Descent
import DefaultImports.Proofs.Pattern.Occurrence
import DefaultImports.Proofs.Surface.Default
import DefaultImports.Proofs.Binding.Site
import DefaultImports.Proofs.Check.LineShift
import DefaultImports.Proofs.Check.FailedRead
import DefaultImports.Proofs.Specifier.Candidates
import DefaultImports.Proofs.Pattern.Shape
import DefaultImports.Proofs.Text.Case
import DefaultImports.Proofs.Suppression.Comment
import DefaultImports.Proofs.Binding.FirstLine
import DefaultImports.Proofs.Check.ByteOrderMark
import DefaultImports.Proofs.Check.Skipped
import DefaultImports.Proofs.Settings.Merge
import DefaultImports.Proofs.Report.Unambiguous
import DefaultImports.Proofs.Report.Lossless
import DefaultImports.Proofs.Report.Lines
import DefaultImports.Proofs.Check.TextReport
import DefaultImports.Proofs.Surface.NameShape
import DefaultImports.Proofs.Check.Verdict
