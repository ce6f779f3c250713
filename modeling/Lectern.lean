import Lectern.Assets
import Lectern.Bundled.Assets
import Lectern.Bundled.Templates
import Lectern.Calendar
import Lectern.CommandLine
import Lectern.Compile
import Lectern.Disk.Access
import Lectern.Disk.Basic
import Lectern.Disk.Resolve
import Lectern.Document.Basic
import Lectern.Document.Building
import Lectern.Document.Stored
import Lectern.Failure
import Lectern.Inline
import Lectern.Json
import Lectern.Kind
import Lectern.Main
import Lectern.Path
import Lectern.Pattern.Basic
import Lectern.Pattern.CharSet
import Lectern.Pattern.Reader
import Lectern.Proofs.Assets.Copying
import Lectern.Proofs.Assets.Foreseeing
import Lectern.Proofs.Assets.Harm
import Lectern.Proofs.Assets.Listing
import Lectern.Proofs.Assets.Overlay
import Lectern.Proofs.Assets.Repeating
import Lectern.Proofs.Assets.Replicating
import Lectern.Proofs.Calendar
import Lectern.Proofs.Compile.HeaderAlone
import Lectern.Proofs.Compile.NotesOff
import Lectern.Proofs.Compile.ReadBack
import Lectern.Proofs.Compile.Refusing
import Lectern.Proofs.Compile.Supplying
import Lectern.Proofs.Compile.Writing
import Lectern.Proofs.Disk.Growth
import Lectern.Proofs.Disk.Leads
import Lectern.Proofs.Disk.Plain
import Lectern.Proofs.Disk.Proper
import Lectern.Proofs.Disk.Run
import Lectern.Proofs.Disk.Steps
import Lectern.Proofs.Disk.Writing
import Lectern.Proofs.Document.Editing
import Lectern.Proofs.Document.Numbering
import Lectern.Proofs.Document.Stored
import Lectern.Proofs.Inline.Grammar
import Lectern.Proofs.Inline.Labels
import Lectern.Proofs.Inline.Links
import Lectern.Proofs.Inline.Words
import Lectern.Proofs.Page.ArticleTemplate
import Lectern.Proofs.Page.Blocks
import Lectern.Proofs.Page.Contents
import Lectern.Proofs.Page.ElementTemplate
import Lectern.Proofs.Page.Elements
import Lectern.Proofs.Page.Identified
import Lectern.Proofs.Page.Inline
import Lectern.Proofs.Page.Marker
import Lectern.Proofs.Page.Markup
import Lectern.Proofs.Page.Navigation
import Lectern.Proofs.Page.Notes
import Lectern.Proofs.Page.Pages
import Lectern.Proofs.Page.PartTemplates
import Lectern.Proofs.Page.Programs
import Lectern.Proofs.Page.Querying
import Lectern.Proofs.Page.Reading
import Lectern.Proofs.Page.Rendered
import Lectern.Proofs.Page.Shown
import Lectern.Proofs.Page.SlidesTemplate
import Lectern.Proofs.Page.WithoutNotes
import Lectern.Proofs.Path
import Lectern.Proofs.Pattern.Matching
import Lectern.Proofs.Results
import Lectern.Proofs.Source.Addresses
import Lectern.Proofs.Source.Authors
import Lectern.Proofs.Source.Comments
import Lectern.Proofs.Source.Coverage
import Lectern.Proofs.Source.Cursor
import Lectern.Proofs.Source.Derivations
import Lectern.Proofs.Source.Descent
import Lectern.Proofs.Source.Entries
import Lectern.Proofs.Source.Excerpts
import Lectern.Proofs.Source.Grammar
import Lectern.Proofs.Source.HeaderLines
import Lectern.Proofs.Source.Joining
import Lectern.Proofs.Source.Notes
import Lectern.Proofs.Source.Numbering
import Lectern.Proofs.Source.Opening
import Lectern.Proofs.Source.Outline
import Lectern.Proofs.Source.Passages
import Lectern.Proofs.Source.Programs
import Lectern.Proofs.Source.Ranges
import Lectern.Proofs.Source.Refusals
import Lectern.Proofs.Source.Returning
import Lectern.Proofs.Source.Scanning
import Lectern.Proofs.Source.Shape
import Lectern.Proofs.Source.Slashes
import Lectern.Proofs.Source.Slices
import Lectern.Proofs.Source.Steps
import Lectern.Proofs.Source.Stretches
import Lectern.Proofs.Source.Turns
import Lectern.Proofs.Source.WellFormed
import Lectern.Proofs.Template.Evaluation
import Lectern.Proofs.Template.Sameness
import Lectern.Proofs.Text.Blocks
import Lectern.Proofs.Text.Offsets
import Lectern.Proofs.Text.Trimming
import Lectern.Source.Address
import Lectern.Source.Basic
import Lectern.Source.Command
import Lectern.Source.Header
import Lectern.Source.Item
import Lectern.Source.Line
import Lectern.Source.Outline
import Lectern.Source.Problem
import Lectern.Template.Basic
import Lectern.Template.Context
import Lectern.Template.Filter
import Lectern.Template.Reader
import Lectern.Template.Render
import Lectern.Template.Token
import Lectern.Template.Value
import Lectern.Text.Blank
import Lectern.Text.CaseFold
import Lectern.Text.Category
import Lectern.Text.Entities
import Lectern.Text.Lines
import Lectern.Text.Quoted
import Lectern.Text.Search
import Lectern.Theme
