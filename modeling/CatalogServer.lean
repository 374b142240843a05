import CatalogServer.Xml.Scan
import CatalogServer.Xml.Attribute
import CatalogServer.Text.LineIndex
import CatalogServer.Text.Numeral
import CatalogServer.Catalog.Basic
import CatalogServer.Catalog.Lookup
import CatalogServer.Catalog.Document
import CatalogServer.Catalog.Escape
import CatalogServer.Catalog.Writer
import CatalogServer.Catalog.ReadError
import CatalogServer.Catalog.Reader
import CatalogServer.Text.Binary64
import CatalogServer.Json.Basic
import CatalogServer.Json.Token
import CatalogServer.Json.Reader
import CatalogServer.Json.Writer
import CatalogServer.Text.SortedMap
import CatalogServer.Locale.Tag
import CatalogServer.Locale.Plural
import CatalogServer.Check.Marker
import CatalogServer.Check.Issue
import CatalogServer.Check.Progress
import CatalogServer.Check.Message
import CatalogServer.Workspace.Path
import CatalogServer.Workspace.Detection
import CatalogServer.Check.Project
import CatalogServer.Glob.Basic
import CatalogServer.Glob.Reader
import CatalogServer.Glob.Matching
import CatalogServer.Text.Unprintable
import CatalogServer.Text.Quoted
import CatalogServer.Json.Decode
import CatalogServer.Settings.Basic
import CatalogServer.Settings.Encoding
import CatalogServer.Settings.Validation
import CatalogServer.Workspace.Disk
import CatalogServer.Settings.Store
import CatalogServer.Workspace.FileMatcher
import CatalogServer.Workspace.IgnoreRules
import CatalogServer.Workspace.Walk
import CatalogServer.Workspace.Indexing
import CatalogServer.Text.Percent
import CatalogServer.Workspace.Uri
import CatalogServer.Editor.Geometry
import CatalogServer.Editor.Diagnostic
import CatalogServer.Editor.Navigation
import CatalogServer.Editor.Hover
import CatalogServer.Editor.QuickFix
import CatalogServer.Session.Message
import CatalogServer.Session.Basic
import CatalogServer.Session.Reindexing
import CatalogServer.Session.Synchronization
import CatalogServer.Session.Features
import CatalogServer.Session.Command
import CatalogServer.Session.Params
import CatalogServer.Session.Server
import CatalogServer.Proofs.Outcome
import CatalogServer.Proofs.Xml.Tags
import CatalogServer.Proofs.Xml.Pieces
import CatalogServer.Proofs.Xml.Attributes
import CatalogServer.Proofs.Catalog.Escaping
import CatalogServer.Proofs.Catalog.Events
import CatalogServer.Proofs.Catalog.Simulation
import CatalogServer.Proofs.Catalog.Traits
import CatalogServer.Proofs.Catalog.Resuming
import CatalogServer.Proofs.Catalog.Retention
import CatalogServer.Proofs.Catalog.StartTags
import CatalogServer.Proofs.Catalog.Content
import CatalogServer.Proofs.Catalog.Targets
import CatalogServer.Proofs.Catalog.Messages
import CatalogServer.Proofs.Catalog.Contexts
import CatalogServer.Proofs.Catalog.RoundTrip
import CatalogServer.Proofs.Catalog.Rereading
import CatalogServer.Proofs.Session.Tracking
import CatalogServer.Proofs.Session.Following
import CatalogServer.Proofs.Session.Authority
import CatalogServer.Proofs.Session.Overlooking
import CatalogServer.Proofs.Session.Runs
import CatalogServer.Proofs.Xml.Locality
import CatalogServer.Proofs.Catalog.Stages
import CatalogServer.Proofs.Catalog.Recording
import CatalogServer.Proofs.Catalog.Placing
import CatalogServer.Proofs.Catalog.Retargeting
import CatalogServer.Proofs.Text.LineIndex
import CatalogServer.Proofs.Editor.QuickFixes
import CatalogServer.Proofs.Session.Detected
import CatalogServer.Proofs.Xml.Elements
import CatalogServer.Proofs.Catalog.Depth
import CatalogServer.Proofs.Catalog.Outline
import CatalogServer.Proofs.Catalog.Spans
import CatalogServer.Proofs.Catalog.ShownTags
import CatalogServer.Proofs.Catalog.KeptContent
import CatalogServer.Proofs.Catalog.Trailing
import CatalogServer.Proofs.Catalog.Seams
import CatalogServer.Proofs.Catalog.Comments
import CatalogServer.Proofs.Catalog.Enclosing
import CatalogServer.Proofs.Catalog.EmptyElements
import CatalogServer.Proofs.Catalog.Spellings
import CatalogServer.Proofs.Session.Steps
import CatalogServer.Proofs.Session.Settings
import CatalogServer.Proofs.Workspace.Indexing
import CatalogServer.Proofs.Workspace.Sniffing
import CatalogServer.Proofs.Session.Noticing
import CatalogServer.Proofs.Session.Matched
import CatalogServer.Proofs.Session.Judgement
import CatalogServer.Proofs.Session.Publishing
import CatalogServer.Proofs.Session.Refreshing
import CatalogServer.Proofs.Session.Conversations
import CatalogServer.Proofs.Session.Batches
import CatalogServer.Proofs.Session.Rereading
import CatalogServer.Proofs.Session.Histories
import CatalogServer.Proofs.Session.Refusals
import CatalogServer.Proofs.Text.SortedMap
import CatalogServer.Proofs.Json.Decoding
import CatalogServer.Proofs.Settings.Changes
import CatalogServer.Proofs.Settings.Encoding
import CatalogServer.Proofs.Text.Ascending
import CatalogServer.Proofs.Catalog.Entries
import CatalogServer.Proofs.Check.Siblings
import CatalogServer.Proofs.Check.Standing
import CatalogServer.Proofs.Check.Reporting
import CatalogServer.Proofs.Editor.Finishing
import CatalogServer.Proofs.Editor.FormCounts
import CatalogServer.Proofs.Catalog.Keys
import CatalogServer.Proofs.Check.Duplicates
import CatalogServer.Proofs.Catalog.Touched
import CatalogServer.Proofs.Editor.Navigating
import CatalogServer.Proofs.Session.Watching
import CatalogServer.Workspace.Reading
import CatalogServer.Proofs.Workspace.Reading
import CatalogServer.Proofs.Text.Positions
import CatalogServer.Proofs.Text.Columns
import CatalogServer.Proofs.Text.Ranges
import CatalogServer.Proofs.Catalog.Cursor
import CatalogServer.Proofs.Workspace.Languages
import CatalogServer.Proofs.Workspace.Naming
import CatalogServer.Proofs.Check.DocumentOrder
import CatalogServer.Proofs.Editor.Attachments
import CatalogServer.Proofs.Editor.FormChanges
import CatalogServer.Proofs.Catalog.ErrorPlaces
import CatalogServer.Proofs.Catalog.KeyTable
import CatalogServer.Proofs.Catalog.Fallback
import CatalogServer.Proofs.Editor.Listing
import CatalogServer.Proofs.Editor.Layout
import CatalogServer.Proofs.Session.References
import CatalogServer.Proofs.Locale.Forms
import CatalogServer.Proofs.Locale.Parts
import CatalogServer.Proofs.Locale.Overrides
import CatalogServer.Proofs.Locale.Normal
import CatalogServer.Proofs.Catalog.Decoding
import CatalogServer.Proofs.Session.Statistics
import CatalogServer.Proofs.Check.Markers
