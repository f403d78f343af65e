import SceneAudit.Text.Blank
import SceneAudit.Text.Word
import SceneAudit.Text.Line
import SceneAudit.Text.Quoted
import SceneAudit.Text.Segment
import SceneAudit.Text.Scan
import SceneAudit.Diagnostic
import SceneAudit.Scene.Header
import SceneAudit.Scene.Record
import SceneAudit.Scene.File
import SceneAudit.Scene.Outline
import SceneAudit.Tree
import SceneAudit.PathIndex
import SceneAudit.Resolution
import SceneAudit.Script.Reference
import SceneAudit.Source
import SceneAudit.Report
import SceneAudit.Analysis
import SceneAudit.Json.Basic
import SceneAudit.Json.Printer
import SceneAudit.Json.Reader
import SceneAudit.Json.Decode
import SceneAudit.Diagnostic.Codec
import SceneAudit.Report.Codec
import SceneAudit.ProjectPath
import SceneAudit.DiskPath
import SceneAudit.FileTree
import SceneAudit.Disk
import SceneAudit.Failure
import SceneAudit.Project
import SceneAudit.Project.Discovery
import SceneAudit.Expectation
import SceneAudit.Expectation.Codec
import SceneAudit.TestCase
import SceneAudit.Palette
import SceneAudit.Report.Lines
import SceneAudit.CommandLine.Settings
import SceneAudit.CommandLine.Invocation
import SceneAudit.CommandLine.Help
import SceneAudit.CommandLine.Run
import SceneAudit.Main
import SceneAudit.Proofs.Tree.Shape
import SceneAudit.Proofs.Tree.Traversal
import SceneAudit.Proofs.Tree.Draft
import SceneAudit.Proofs.Tree.Construction
import SceneAudit.Proofs.Tree.Ancestry
import SceneAudit.Proofs.Tree.Collision
import SceneAudit.Proofs.Scene.Reading
import SceneAudit.Proofs.Scene.Writing
import SceneAudit.Proofs.Scene.Saving
import SceneAudit.Proofs.Report.Dangling
import SceneAudit.Proofs.Report.Coherence
import SceneAudit.Proofs.Script.Binding
import SceneAudit.Proofs.Script.Replacement
import SceneAudit.Proofs.Report.Suggestion
import SceneAudit.Proofs.Disk.LegalTree
import SceneAudit.Proofs.Disk.Following
import SceneAudit.Proofs.Project.SceneNames
import SceneAudit.Proofs.Project.SceneFiles
import SceneAudit.Proofs.Project.Checked
import SceneAudit.Proofs.Project.ArrivalOrder
import SceneAudit.Proofs.Report.Counts
import SceneAudit.Proofs.CommandLine.ExitCode
import SceneAudit.Proofs.Scene.Insertion
import SceneAudit.Proofs.Project.ExpectedFindings
import SceneAudit.Proofs.Tree.Growth
import SceneAudit.Proofs.Report.WrittenParents
import SceneAudit.Proofs.Project.Independence
import SceneAudit.Proofs.Json.Restating
import SceneAudit.Proofs.Json.Writing
import SceneAudit.Proofs.Json.Codecs
import SceneAudit.Proofs.CommandLine.PrintedReport
import SceneAudit.Proofs.Scene.Grammar
import SceneAudit.Proofs.Scene.Positions
import SceneAudit.Proofs.Scene.Attachment
import SceneAudit.Proofs.Scene.WrittenScript
import SceneAudit.Proofs.Scene.IdleSections
import SceneAudit.Proofs.Script.Grammar
import SceneAudit.Proofs.Script.WholePaths
import SceneAudit.Proofs.Tree.DepthFirst
import SceneAudit.Proofs.Tree.Descent
import SceneAudit.Proofs.Tree.Preference
import SceneAudit.Proofs.Tree.MissingParent
import SceneAudit.Proofs.Project.NormalPaths
import SceneAudit.Proofs.Project.Selection
import SceneAudit.Proofs.CommandLine.PrintedView
import SceneAudit.Proofs.Scene.Placement
import SceneAudit.Proofs.Scene.Brackets
