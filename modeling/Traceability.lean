import Traceability.Command.Basic
import Traceability.Command.Readers
import Traceability.Command.Run
import Traceability.Command.Words
import Traceability.Config.Basic
import Traceability.Config.File
import Traceability.Consistency
import Traceability.Disk
import Traceability.Editor.Feature
import Traceability.Editor.Session
import Traceability.Excerpt.Assembly
import Traceability.Excerpt.Bounds
import Traceability.Excerpt.Budget
import Traceability.Failure
import Traceability.Finding
import Traceability.Gather
import Traceability.Glob.Brace
import Traceability.Glob.Mask
import Traceability.Glob.Name
import Traceability.Glob.Select
import Traceability.Identifier
import Traceability.Json
import Traceability.Live.Basic
import Traceability.Live.Source
import Traceability.Main
import Traceability.Marker.Basic
import Traceability.Marker.Directive
import Traceability.Marker.Scan
import Traceability.Moment
import Traceability.OrderedMap
import Traceability.Outline.Basic
import Traceability.Outline.Content
import Traceability.Outline.Fence
import Traceability.Path
import Traceability.Pattern.Basic
import Traceability.Pattern.CharacterName
import Traceability.Pattern.Escape
import Traceability.Pattern.Fault
import Traceability.Pattern.Group
import Traceability.Pattern.Match
import Traceability.Pattern.Reader
import Traceability.Pattern.Reading
import Traceability.Pattern.Use
import Traceability.Pattern.Width
import Traceability.Project.Basic
import Traceability.Project.Check
import Traceability.Project.Trace
import Traceability.Proofs.Config.File
import Traceability.Proofs.Config.Section
import Traceability.Proofs.Consistency
import Traceability.Proofs.Cut
import Traceability.Proofs.Disk
import Traceability.Proofs.Editor.Completion
import Traceability.Proofs.Editor.Counts
import Traceability.Proofs.Editor.Diagnostics
import Traceability.Proofs.Editor.Edits
import Traceability.Proofs.Editor.Filing
import Traceability.Proofs.Editor.MarkerRename
import Traceability.Proofs.Editor.Reading
import Traceability.Proofs.Editor.Redeclared
import Traceability.Proofs.Editor.Referred
import Traceability.Proofs.Editor.Renamed
import Traceability.Proofs.Editor.Replaced
import Traceability.Proofs.Editor.SpecRename
import Traceability.Proofs.Excerpt.Assembly
import Traceability.Proofs.Excerpt.Block
import Traceability.Proofs.Excerpt.Bounds
import Traceability.Proofs.Excerpt.Budget
import Traceability.Proofs.Excerpt.Fenced
import Traceability.Proofs.Excerpt.Section
import Traceability.Proofs.FileOrder
import Traceability.Proofs.Gather
import Traceability.Proofs.Glob.Brace
import Traceability.Proofs.Glob.Canonical
import Traceability.Proofs.Glob.Collect
import Traceability.Proofs.Glob.Covered
import Traceability.Proofs.Glob.Mask
import Traceability.Proofs.Glob.Name
import Traceability.Proofs.Glob.Select
import Traceability.Proofs.Identifier
import Traceability.Proofs.Joined
import Traceability.Proofs.Line
import Traceability.Proofs.Listing
import Traceability.Proofs.Live.Agreement
import Traceability.Proofs.Live.Canonical
import Traceability.Proofs.Live.Contribution
import Traceability.Proofs.Live.Cursor
import Traceability.Proofs.Live.Files
import Traceability.Proofs.Live.History
import Traceability.Proofs.Live.Incremental
import Traceability.Proofs.Live.Keyed
import Traceability.Proofs.Live.Represents
import Traceability.Proofs.Marker.Annotated
import Traceability.Proofs.Marker.Directive
import Traceability.Proofs.Marker.Entry
import Traceability.Proofs.Marker.Line
import Traceability.Proofs.Marker.Named
import Traceability.Proofs.Marker.Origin
import Traceability.Proofs.Marker.Span
import Traceability.Proofs.Marker.Visible
import Traceability.Proofs.Marker.Word
import Traceability.Proofs.OrderedMap
import Traceability.Proofs.Outline.Content
import Traceability.Proofs.Outline.Document
import Traceability.Proofs.Outline.Extent
import Traceability.Proofs.Outline.Fence
import Traceability.Proofs.Outline.Nesting
import Traceability.Proofs.Outline.Table
import Traceability.Proofs.Path
import Traceability.Proofs.Pattern.Enclosed
import Traceability.Proofs.Pattern.EscapeTracks
import Traceability.Proofs.Pattern.GlobalFlags
import Traceability.Proofs.Pattern.GroupTracks
import Traceability.Proofs.Pattern.IdForm
import Traceability.Proofs.Pattern.ItemTracks
import Traceability.Proofs.Pattern.Language
import Traceability.Proofs.Pattern.Reading
import Traceability.Proofs.Pattern.Spelling
import Traceability.Proofs.Pattern.Tracks
import Traceability.Proofs.Reference
import Traceability.Proofs.Results
import Traceability.Proofs.Rule.Conformance
import Traceability.Proofs.Rule.Conforming
import Traceability.Proofs.Rule.Fault
import Traceability.Proofs.Rule.File
import Traceability.Proofs.Rule.Grammar
import Traceability.Proofs.Rule.Prohibited
import Traceability.Proofs.Rule.Reader
import Traceability.Proofs.Shape
import Traceability.Proofs.Spec.Catalogue
import Traceability.Proofs.Spec.Document
import Traceability.Proofs.Spec.Position
import Traceability.Proofs.Token
import Traceability.Proofs.Trace.Chain
import Traceability.Proofs.Trace.Coverage
import Traceability.Proofs.Trace.Index
import Traceability.Proofs.Trace.Kind
import Traceability.Proofs.Trace.Links
import Traceability.Proofs.Trace.Markers
import Traceability.Proofs.Trace.Options
import Traceability.Proofs.Trace.Reach
import Traceability.Proofs.Trace.Request
import Traceability.Proofs.Trace.Resolve
import Traceability.Proofs.Trace.Typing
import Traceability.Proofs.Trim
import Traceability.Proofs.Uri
import Traceability.Proofs.Utf8
import Traceability.Report.Content
import Traceability.Report.Findings
import Traceability.Report.Trace
import Traceability.Rule.Basic
import Traceability.Rule.Conformance
import Traceability.Rule.File
import Traceability.Rule.Notation
import Traceability.Rule.Reader
import Traceability.Sorted
import Traceability.Spec.Catalogue
import Traceability.Spec.Document
import Traceability.Spec.Line
import Traceability.Text.Basic
import Traceability.Text.Blank
import Traceability.Text.Case
import Traceability.Text.CharRange
import Traceability.Text.Digit
import Traceability.Text.Hex
import Traceability.Text.Lexeme
import Traceability.Text.Line
import Traceability.Text.Number
import Traceability.Text.Printable
import Traceability.Text.Quoted
import Traceability.Text.Utf8
import Traceability.Text.Word
import Traceability.Toml.Document
import Traceability.Toml.Scalar
import Traceability.Toml.Tree
import Traceability.Trace.Chain
import Traceability.Trace.Index
import Traceability.Trace.Source
import Traceability.Uri
import Traceability.Uri.Host
import Traceability.Value
import Traceability.Yaml.Basic
import Traceability.Yaml.Block
import Traceability.Yaml.Document
import Traceability.Yaml.Node
import Traceability.Yaml.Plain
import Traceability.Yaml.Quoted
import Traceability.Yaml.Scalar
import Traceability.Yaml.Tag
import Traceability.Yaml.Token
