import ComponentAtlas.Cache.Expiring
import ComponentAtlas.Cache.Records
import ComponentAtlas.Cache.Stats
import ComponentAtlas.Catalog.Basic
import ComponentAtlas.Catalog.Description
import ComponentAtlas.Catalog.Query
import ComponentAtlas.Catalog.Refresh
import ComponentAtlas.Category.Detector
import ComponentAtlas.Category.Rule
import ComponentAtlas.CommandLine.Arguments
import ComponentAtlas.CommandLine.Command
import ComponentAtlas.CommandLine.Run
import ComponentAtlas.Component.Basic
import ComponentAtlas.Component.Documentation
import ComponentAtlas.Component.Framework
import ComponentAtlas.Component.Imports
import ComponentAtlas.Component.Naming
import ComponentAtlas.Data.Basic
import ComponentAtlas.Data.Json
import ComponentAtlas.Data.Literal
import ComponentAtlas.Data.Reader
import ComponentAtlas.Data.Yaml.Document
import ComponentAtlas.Data.Yaml.Scalar
import ComponentAtlas.Data.Yaml.Text
import ComponentAtlas.Decimal.Binary
import ComponentAtlas.Decimal.Reading
import ComponentAtlas.Decimal.Shortest
import ComponentAtlas.Design.Color
import ComponentAtlas.Design.Measure
import ComponentAtlas.Design.Pattern
import ComponentAtlas.Design.Snapshot
import ComponentAtlas.Design.Token
import ComponentAtlas.Design.Utility
import ComponentAtlas.Discovery.Analysis
import ComponentAtlas.Discovery.Scan
import ComponentAtlas.Disk.Basic
import ComponentAtlas.Disk.Change
import ComponentAtlas.Disk.Lookup
import ComponentAtlas.Disk.Machine
import ComponentAtlas.Disk.Walk
import ComponentAtlas.Fault
import ComponentAtlas.Incident
import ComponentAtlas.Journal
import ComponentAtlas.Ledger
import ComponentAtlas.Main
import ComponentAtlas.Path.Basic
import ComponentAtlas.Path.Brace
import ComponentAtlas.Path.Filter
import ComponentAtlas.Path.Glob
import ComponentAtlas.Pattern.Basic
import ComponentAtlas.Pattern.Reading
import ComponentAtlas.Props.Comment
import ComponentAtlas.Props.Extractor
import ComponentAtlas.Props.Header
import ComponentAtlas.Props.Members
import ComponentAtlas.Props.SyntaxTree
import ComponentAtlas.Service.Request
import ComponentAtlas.Service.Respond
import ComponentAtlas.Settings.Basic
import ComponentAtlas.Settings.Check
import ComponentAtlas.Settings.Coercion
import ComponentAtlas.Settings.File
import ComponentAtlas.Settings.Merge
import ComponentAtlas.Settings.Workspace
import ComponentAtlas.Similarity.EditDistance
import ComponentAtlas.Similarity.Ranking
import ComponentAtlas.Similarity.Score
import ComponentAtlas.Source.Block
import ComponentAtlas.Source.Enclosure
import ComponentAtlas.Source.Lexeme
import ComponentAtlas.Source.Segment
import ComponentAtlas.Styles.ClassAttribute
import ComponentAtlas.Styles.Extraction
import ComponentAtlas.Styles.Sheet
import ComponentAtlas.Text.Alphanumeric
import ComponentAtlas.Text.Blank
import ComponentAtlas.Text.Lines
import ComponentAtlas.Text.LowerCase
import ComponentAtlas.Text.Printable
import ComponentAtlas.Text.Search
import ComponentAtlas.Text.Utf8
import ComponentAtlas.Time.Timestamp
import ComponentAtlas.Proofs.Text.Alphanumeric
import ComponentAtlas.Proofs.Text.Search
import ComponentAtlas.Proofs.Text.Utf8
import ComponentAtlas.Proofs.Text.Words
import ComponentAtlas.Proofs.Source.Enclosure
import ComponentAtlas.Proofs.Source.Lexeme
import ComponentAtlas.Proofs.Source.Segment
import ComponentAtlas.Proofs.Source.Division
import ComponentAtlas.Proofs.Source.Comments
import ComponentAtlas.Proofs.Source.Cutting
import ComponentAtlas.Proofs.Source.Depth
import ComponentAtlas.Proofs.Props.Signature
import ComponentAtlas.Proofs.Props.Members
import ComponentAtlas.Proofs.Props.Nodes
import ComponentAtlas.Proofs.Props.Agreement
import ComponentAtlas.Proofs.Styles.Rendering
import ComponentAtlas.Proofs.Styles.Sheet
import ComponentAtlas.Proofs.Component.Imports
import ComponentAtlas.Proofs.Similarity.EditDistance
import ComponentAtlas.Proofs.Similarity.Score
import ComponentAtlas.Proofs.Source.CommentPlace
import ComponentAtlas.Proofs.Props.Attachment
import ComponentAtlas.Proofs.Props.NodeAttachment
import ComponentAtlas.Proofs.Props.Standing
import ComponentAtlas.Proofs.Props.Trailing
import ComponentAtlas.Proofs.Path.Names
import ComponentAtlas.Proofs.Disk.Tree
import ComponentAtlas.Proofs.Disk.Walk
import ComponentAtlas.Proofs.Path.Exclusion
import ComponentAtlas.Proofs.Path.Expansion
import ComponentAtlas.Proofs.Path.Wildcards
import ComponentAtlas.Proofs.Discovery.Survey
import ComponentAtlas.Proofs.Discovery.Pruning
import ComponentAtlas.Proofs.Fallible
import ComponentAtlas.Proofs.Settings.Opening
import ComponentAtlas.Proofs.Settings.Faults
import ComponentAtlas.Proofs.Settings.Updating
import ComponentAtlas.Proofs.Settings.Fallback
import ComponentAtlas.Proofs.Settings.Checked
import ComponentAtlas.Proofs.Data.Mapping
import ComponentAtlas.Proofs.Data.Overwriting
import ComponentAtlas.Proofs.Data.Json
import ComponentAtlas.Proofs.Disk.Writing
import ComponentAtlas.Proofs.Disk.Resolution
import ComponentAtlas.Proofs.Settings.Merging
import ComponentAtlas.Proofs.Settings.Rereading
import ComponentAtlas.Proofs.Settings.Saving
import ComponentAtlas.Proofs.Settings.Placing
import ComponentAtlas.Proofs.Settings.Composing
import ComponentAtlas.Proofs.Cache.Expiring
import ComponentAtlas.Proofs.Cache.Records
import ComponentAtlas.Proofs.Cache.History
import ComponentAtlas.Proofs.Cache.ExpiringRun
import ComponentAtlas.Proofs.Cache.RecordsRun
import ComponentAtlas.Proofs.Catalog.Run
import ComponentAtlas.Proofs.Catalog.Stock
import ComponentAtlas.Proofs.Catalog.DesignSystems
import ComponentAtlas.Proofs.Cache.Capacity
import ComponentAtlas.Proofs.Catalog.Accounting
import ComponentAtlas.Proofs.Catalog.Transparency
import ComponentAtlas.Proofs.Catalog.Isolation
import ComponentAtlas.Proofs.CommandLine.Endings
import ComponentAtlas.Proofs.Styles.Interpolation
import ComponentAtlas.Proofs.Props.Misreading
import ComponentAtlas.Proofs.Props.BodyLine
import ComponentAtlas.Proofs.Props.IndexSignature
import ComponentAtlas.Proofs.Source.Inside
import ComponentAtlas.Proofs.Source.Undisturbed
import ComponentAtlas.Proofs.Props.Header
import ComponentAtlas.Proofs.Props.Uncommented
import ComponentAtlas.Proofs.Styles.Uncommented
import ComponentAtlas.Proofs.Discovery.Commented
import ComponentAtlas.Proofs.Text.Hits
import ComponentAtlas.Proofs.Text.Lines
import ComponentAtlas.Proofs.Styles.Attribute
import ComponentAtlas.Proofs.Styles.Expression
import ComponentAtlas.Proofs.Component.Documentation
import ComponentAtlas.Proofs.Component.ImportForms
import ComponentAtlas.Proofs.Component.ImportStatement
import ComponentAtlas.Proofs.Component.Dependencies
import ComponentAtlas.Proofs.Component.Examples
import ComponentAtlas.Proofs.Design.Tally
import ComponentAtlas.Proofs.Design.Tokens
import ComponentAtlas.Proofs.Design.Patterns
import ComponentAtlas.Proofs.Category.Rules
import ComponentAtlas.Proofs.Category.Detection
import ComponentAtlas.Proofs.Category.Suggestion
import ComponentAtlas.Proofs.Decimal.Order
import ComponentAtlas.Proofs.Similarity.Ranking
import ComponentAtlas.Proofs.Catalog.Description
import ComponentAtlas.Proofs.Discovery.Overlap
import ComponentAtlas.Proofs.Ledger
import ComponentAtlas.Proofs.Source.Loop
import ComponentAtlas.Proofs.Source.Place
import ComponentAtlas.Proofs.Source.Scanning
import ComponentAtlas.Proofs.Source.Locality
import ComponentAtlas.Proofs.Source.Rounds
import ComponentAtlas.Proofs.Styles.Rounds
