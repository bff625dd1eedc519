import BlockTheme.Binary64
import BlockTheme.Binary64.Shortest
import BlockTheme.Chunks
import BlockTheme.Command
import BlockTheme.Command.Arguments
import BlockTheme.Command.Usage
import BlockTheme.Convert
import BlockTheme.Convert.Batch
import BlockTheme.Csv
import BlockTheme.Document
import BlockTheme.Document.Reader
import BlockTheme.Document.Summary
import BlockTheme.Document.Vocabulary
import BlockTheme.Document.Writer
import BlockTheme.Files
import BlockTheme.Files.Packing
import BlockTheme.Files.Path
import BlockTheme.Html
import BlockTheme.Html.Name
import BlockTheme.Html.Reference
import BlockTheme.Html.Token
import BlockTheme.Json
import BlockTheme.Json.Display
import BlockTheme.Json.Reader
import BlockTheme.Json.Writer
import BlockTheme.Main
import BlockTheme.Markup
import BlockTheme.Proofs.Binary64.Order
import BlockTheme.Proofs.Binary64.Range
import BlockTheme.Proofs.Binary64.Shortest
import BlockTheme.Proofs.Chunks
import BlockTheme.Proofs.Command.Arguments
import BlockTheme.Proofs.Command.Endings
import BlockTheme.Proofs.Command.Failures
import BlockTheme.Proofs.Command.Histories
import BlockTheme.Proofs.Convert.Advice
import BlockTheme.Proofs.Convert.Calls
import BlockTheme.Proofs.Convert.Collection
import BlockTheme.Proofs.Convert.Descriptions
import BlockTheme.Proofs.Convert.Directories
import BlockTheme.Proofs.Convert.Frame
import BlockTheme.Proofs.Convert.Outputs
import BlockTheme.Proofs.Convert.Placement
import BlockTheme.Proofs.Convert.Reports
import BlockTheme.Proofs.Convert.Tables
import BlockTheme.Proofs.Convert.Targets
import BlockTheme.Proofs.Convert.Workers
import BlockTheme.Proofs.Csv
import BlockTheme.Proofs.Document.Loaded
import BlockTheme.Proofs.Document.Written
import BlockTheme.Proofs.Files.Growth
import BlockTheme.Proofs.Files.Refusals
import BlockTheme.Proofs.Files.Saving
import BlockTheme.Proofs.Html.Numbers
import BlockTheme.Proofs.Html.Places
import BlockTheme.Proofs.Html.StartTags
import BlockTheme.Proofs.Json.Cleaning
import BlockTheme.Proofs.Json.Grammar
import BlockTheme.Proofs.Json.Numbers
import BlockTheme.Proofs.Json.Parts
import BlockTheme.Proofs.Json.Paths
import BlockTheme.Proofs.Json.Reader
import BlockTheme.Proofs.Json.RoundTrip
import BlockTheme.Proofs.Json.Texts
import BlockTheme.Proofs.Markup.Blocks
import BlockTheme.Proofs.Markup.Comments
import BlockTheme.Proofs.Markup.Heads
import BlockTheme.Proofs.Markup.Nesting
import BlockTheme.Proofs.Markup.Scan
import BlockTheme.Proofs.Markup.Segments
import BlockTheme.Proofs.Php.Functions
import BlockTheme.Proofs.Php.Tokens
import BlockTheme.Proofs.Recovery.Buckets
import BlockTheme.Proofs.Recovery.ClassNames
import BlockTheme.Proofs.Recovery.Consumption
import BlockTheme.Proofs.Recovery.Containers
import BlockTheme.Proofs.Recovery.Faithful
import BlockTheme.Proofs.Recovery.Fingerprints
import BlockTheme.Proofs.Recovery.Frame
import BlockTheme.Proofs.Recovery.Grants
import BlockTheme.Proofs.Recovery.Hidden
import BlockTheme.Proofs.Recovery.Idempotence
import BlockTheme.Proofs.Recovery.Independence
import BlockTheme.Proofs.Recovery.Leaves
import BlockTheme.Proofs.Recovery.Outcome
import BlockTheme.Proofs.Recovery.Ranking
import BlockTheme.Proofs.Recovery.Selectors
import BlockTheme.Proofs.Recovery.Shipped
import BlockTheme.Proofs.Recovery.SingleUse
import BlockTheme.Proofs.Recovery.Thresholds
import BlockTheme.Proofs.Recovery.Walk
import BlockTheme.Proofs.Recovery.Wrappers
import BlockTheme.Proofs.Render.Appearance
import BlockTheme.Proofs.Render.Delimiters
import BlockTheme.Proofs.Render.Heads
import BlockTheme.Proofs.Render.Kinds
import BlockTheme.Proofs.Render.Layout
import BlockTheme.Proofs.Render.Nodes
import BlockTheme.Proofs.Render.Pruned
import BlockTheme.Proofs.Render.Quotes
import BlockTheme.Proofs.Render.References
import BlockTheme.Proofs.Render.Sections
import BlockTheme.Proofs.Render.Styles
import BlockTheme.Proofs.Render.Templates
import BlockTheme.Proofs.Rounding
import BlockTheme.Proofs.Settings.Casts
import BlockTheme.Proofs.Settings.Changes
import BlockTheme.Proofs.Settings.Levels
import BlockTheme.Proofs.Settings.Members
import BlockTheme.Proofs.Settings.Memory
import BlockTheme.Proofs.Settings.Plain
import BlockTheme.Proofs.Settings.Readings
import BlockTheme.Proofs.Settings.Requests
import BlockTheme.Proofs.Settings.Usable
import BlockTheme.Proofs.Settings.Writing
import BlockTheme.Proofs.Style.Agreement
import BlockTheme.Proofs.Style.Entries
import BlockTheme.Proofs.Style.Mapping
import BlockTheme.Proofs.Style.ReadBack
import BlockTheme.Proofs.Text.Digits
import BlockTheme.Proofs.Text.Entities
import BlockTheme.Proofs.Text.Letters
import BlockTheme.Proofs.Text.Margins
import BlockTheme.Proofs.Text.Marks
import BlockTheme.Proofs.Text.Normal
import BlockTheme.Proofs.Text.Slugs
import BlockTheme.Proofs.Text.Utf8
import BlockTheme.Proofs.Text.Words
import BlockTheme.Proofs.Theme.Declaration
import BlockTheme.Proofs.Theme.Functions
import BlockTheme.Proofs.Theme.Names
import BlockTheme.Proofs.Theme.Presets
import BlockTheme.Recovery.Assignment
import BlockTheme.Recovery.ClassName
import BlockTheme.Recovery.Container
import BlockTheme.Recovery.Fingerprint
import BlockTheme.Recovery.Leaf
import BlockTheme.Recovery.Thresholds
import BlockTheme.Render.Appearance
import BlockTheme.Render.Node
import BlockTheme.Render.Section
import BlockTheme.Render.Template
import BlockTheme.Schema
import BlockTheme.Schema.Field
import BlockTheme.Settings
import BlockTheme.Settings.Cast
import BlockTheme.Settings.Data
import BlockTheme.Settings.Heap
import BlockTheme.Settings.Logging
import BlockTheme.Settings.Reader
import BlockTheme.Settings.Shown
import BlockTheme.Settings.Store
import BlockTheme.Settings.Thresholds
import BlockTheme.Style
import BlockTheme.Style.Mapping
import BlockTheme.Style.Preset
import BlockTheme.Text.Blank
import BlockTheme.Text.Case
import BlockTheme.Text.Escape
import BlockTheme.Text.Glyph
import BlockTheme.Text.Letter
import BlockTheme.Text.Numeral
import BlockTheme.Text.Quoted
import BlockTheme.Text.Slug
import BlockTheme.Text.Table
import BlockTheme.Text.Utf8
import BlockTheme.Theme.Files
import BlockTheme.Theme.Fonts
import BlockTheme.Theme.Settings
import BlockTheme.Theme.Slug
