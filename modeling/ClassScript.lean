import ClassScript.Analysis
import ClassScript.Analysis.Tree
import ClassScript.Analyzer
import ClassScript.Archive
import ClassScript.Archive.Inflate
import ClassScript.Aspect
import ClassScript.Attachment
import ClassScript.CommandLine
import ClassScript.CommandLine.Arguments
import ClassScript.Failure
import ClassScript.FileTree
import ClassScript.JavaScript.Characters
import ClassScript.JavaScript.Class
import ClassScript.JavaScript.Escape
import ClassScript.JavaScript.Expression
import ClassScript.JavaScript.Function
import ClassScript.JavaScript.Grammar
import ClassScript.JavaScript.Lexeme
import ClassScript.JavaScript.Literal
import ClassScript.JavaScript.Markup
import ClassScript.JavaScript.ModuleItem
import ClassScript.JavaScript.Node
import ClassScript.JavaScript.Pattern
import ClassScript.JavaScript.Property
import ClassScript.JavaScript.Reader
import ClassScript.JavaScript.Script
import ClassScript.JavaScript.Semicolon
import ClassScript.JavaScript.Shape
import ClassScript.JavaScript.Statement
import ClassScript.Json
import ClassScript.Main
import ClassScript.Path.Match
import ClassScript.Path.Pattern
import ClassScript.Point
import ClassScript.Position
import ClassScript.Proofs.Accumulation
import ClassScript.Proofs.Addresses
import ClassScript.Proofs.Assembly
import ClassScript.Proofs.Attachments
import ClassScript.Proofs.Batch
import ClassScript.Proofs.Buckets
import ClassScript.Proofs.ClassFields
import ClassScript.Proofs.Comments
import ClassScript.Proofs.Components
import ClassScript.Proofs.Description
import ClassScript.Proofs.DocumentOrder
import ClassScript.Proofs.Entries
import ClassScript.Proofs.Escape
import ClassScript.Proofs.ExitCodes
import ClassScript.Proofs.Failures
import ClassScript.Proofs.Faults
import ClassScript.Proofs.FieldOrder
import ClassScript.Proofs.Gaps
import ClassScript.Proofs.Geometry
import ClassScript.Proofs.Layout
import ClassScript.Proofs.Literals
import ClassScript.Proofs.Lossless
import ClassScript.Proofs.Matching
import ClassScript.Proofs.Merge
import ClassScript.Proofs.Neighbours
import ClassScript.Proofs.Node
import ClassScript.Proofs.Options
import ClassScript.Proofs.Placement
import ClassScript.Proofs.Points
import ClassScript.Proofs.Position
import ClassScript.Proofs.Reading
import ClassScript.Proofs.Remarks
import ClassScript.Proofs.Reordering
import ClassScript.Proofs.Reuse
import ClassScript.Proofs.Saving
import ClassScript.Proofs.Scan
import ClassScript.Proofs.Schedules
import ClassScript.Proofs.Selection
import ClassScript.Proofs.Shown
import ClassScript.Proofs.Sites
import ClassScript.Proofs.Sorting
import ClassScript.Proofs.Spans
import ClassScript.Proofs.Stripping
import ClassScript.Proofs.Table
import ClassScript.Proofs.Takers
import ClassScript.Proofs.Transitions
import ClassScript.Proofs.Traversal
import ClassScript.Proofs.Unpacked
import ClassScript.Proofs.Utf16
import ClassScript.Recognizer
import ClassScript.Recognizer.Scan
import ClassScript.Recognizer.Shape
import ClassScript.Recognizer.State
import ClassScript.Remark
import ClassScript.Report
import ClassScript.Report.Cell
import ClassScript.Report.Console
import ClassScript.Selector
import ClassScript.Settings
import ClassScript.Source
import ClassScript.Table
import ClassScript.Text
import ClassScript.Text.Numeral
import ClassScript.Text.Quoted
import ClassScript.Text.Utf16
import ClassScript.Text.Utf8
import ClassScript.Text.Width
