import SketchPrep.Catalog
import SketchPrep.CommandLine.Arguments
import SketchPrep.CommandLine.Run
import SketchPrep.Config
import SketchPrep.Diagnostic
import SketchPrep.Dictionary
import SketchPrep.Discovery.IncludeScan
import SketchPrep.Discovery.Preprocessor
import SketchPrep.Discovery.Queue
import SketchPrep.Discovery.Session
import SketchPrep.Failure
import SketchPrep.FileTree.Access
import SketchPrep.FileTree.Basic
import SketchPrep.FileTree.Change
import SketchPrep.FileTree.Search
import SketchPrep.Imports
import SketchPrep.Inspection
import SketchPrep.JsonValue
import SketchPrep.Library.Basic
import SketchPrep.Library.Defect
import SketchPrep.Library.Files
import SketchPrep.Library.Load
import SketchPrep.LineMarker
import SketchPrep.Log
import SketchPrep.Main
import SketchPrep.Patch
import SketchPrep.Path.Basic
import SketchPrep.Path.Relative
import SketchPrep.Pattern
import SketchPrep.Platform
import SketchPrep.Preparation
import SketchPrep.Proofs.Catalog
import SketchPrep.Proofs.Catalog.Folders
import SketchPrep.Proofs.Catalog.Listing
import SketchPrep.Proofs.Dictionary
import SketchPrep.Proofs.Discovery.Account
import SketchPrep.Proofs.Discovery.Atomicity
import SketchPrep.Proofs.Discovery.Blocks
import SketchPrep.Proofs.Discovery.Confluence
import SketchPrep.Proofs.Discovery.Invariant
import SketchPrep.Proofs.Discovery.Orderly
import SketchPrep.Proofs.Discovery.Queue
import SketchPrep.Proofs.Discovery.QueueLife
import SketchPrep.Proofs.Discovery.Resolutions
import SketchPrep.Proofs.Discovery.Steps
import SketchPrep.Proofs.Discovery.Trace
import SketchPrep.Proofs.Discovery.Unresolved
import SketchPrep.Proofs.Failure
import SketchPrep.Proofs.FileTree.Below
import SketchPrep.Proofs.FileTree.Change
import SketchPrep.Proofs.FileTree.ChangedBelow
import SketchPrep.Proofs.FileTree.Course
import SketchPrep.Proofs.FileTree.Growth
import SketchPrep.Proofs.FileTree.Linkless
import SketchPrep.Proofs.FileTree.Matching
import SketchPrep.Proofs.FileTree.Search
import SketchPrep.Proofs.FileTree.Spelling
import SketchPrep.Proofs.FileTree.Stages
import SketchPrep.Proofs.FileTree.Way
import SketchPrep.Proofs.FileTree.WellFormed
import SketchPrep.Proofs.Library.Architectures
import SketchPrep.Proofs.Library.Files
import SketchPrep.Proofs.LineMarker
import SketchPrep.Proofs.Path.Extension
import SketchPrep.Proofs.Path.Location
import SketchPrep.Proofs.Path.Order
import SketchPrep.Proofs.Path.Pieces
import SketchPrep.Proofs.Path.Sameness
import SketchPrep.Proofs.Path.Way
import SketchPrep.Proofs.Preparation
import SketchPrep.Proofs.Preparation.Sources
import SketchPrep.Proofs.Presumed.Directive
import SketchPrep.Proofs.Presumed.Filter
import SketchPrep.Proofs.Presumed.Merge
import SketchPrep.Proofs.Presumed.Patch
import SketchPrep.Proofs.Presumed.Position
import SketchPrep.Proofs.Properties.ReadBack
import SketchPrep.Proofs.Properties.Reading
import SketchPrep.Proofs.Selection.Alternatives
import SketchPrep.Proofs.Selection.ByName
import SketchPrep.Proofs.Selection.Priority
import SketchPrep.Proofs.Selection.Rank
import SketchPrep.Proofs.Selection.Reasons
import SketchPrep.Proofs.Selection.Resolution
import SketchPrep.Proofs.Selection.StandIn
import SketchPrep.Proofs.Sketch.Files
import SketchPrep.Proofs.Sketch.Load
import SketchPrep.Proofs.Tag.EarliestLine
import SketchPrep.Proofs.Tag.InsertionLine
import SketchPrep.Proofs.Tag.Lacking
import SketchPrep.Proofs.Tag.LinkageRegion
import SketchPrep.Proofs.Tag.Modifiers
import SketchPrep.Proofs.Tag.Passes
import SketchPrep.Proofs.Tag.ReadBack
import SketchPrep.Proofs.Tag.Settled
import SketchPrep.Proofs.Tag.Shadowed
import SketchPrep.Proofs.Tag.TemplateHead
import SketchPrep.Proofs.Tag.Verdict
import SketchPrep.Proofs.Text.LetterCase
import SketchPrep.Proofs.Text.Occurrence
import SketchPrep.Proofs.Text.Pieces
import SketchPrep.Proofs.Text.Rows
import SketchPrep.Proofs.Toolchain.MissingHeader
import SketchPrep.Properties
import SketchPrep.Prototype
import SketchPrep.Script.Basic
import SketchPrep.Script.Expansion
import SketchPrep.Script.Printing
import SketchPrep.Script.Reader
import SketchPrep.Script.Run
import SketchPrep.Script.Token
import SketchPrep.Selection
import SketchPrep.Sketch.Basic
import SketchPrep.Sketch.Load
import SketchPrep.Tag.Basic
import SketchPrep.Tag.CLinkage
import SketchPrep.Tag.Narration
import SketchPrep.Tag.Record
import SketchPrep.Tag.Stage
import SketchPrep.Text.Blank
import SketchPrep.Text.Digits
import SketchPrep.Text.LetterCase
import SketchPrep.Text.Lines
import SketchPrep.Text.Number
import SketchPrep.Text.Quoted
import SketchPrep.Text.Search
import SketchPrep.Text.Utf8
import SketchPrep.Toml.Basic
import SketchPrep.Toml.Number
import SketchPrep.Toml.Reader
import SketchPrep.Toml.Text
import SketchPrep.Toolchain.Command
import SketchPrep.Toolchain.Compiler
import SketchPrep.Toolchain.Installed
import SketchPrep.Toolchain.MissingHeader
import SketchPrep.Toolchain.SymbolLister
import SketchPrep.Toolchain.System
import SketchPrep.Warning
