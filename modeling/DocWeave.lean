import DocWeave.Main
import DocWeave.Proofs.Description.Grouping
import DocWeave.Proofs.Description.Reach
import DocWeave.Proofs.Sphinx.Stages
import DocWeave.Proofs.Sphinx.Effect
import DocWeave.Proofs.Sphinx.Atomicity
import DocWeave.Proofs.Sphinx.History
import DocWeave.Proofs.Markdown.Running
import DocWeave.Proofs.Markdown.Written
import DocWeave.Proofs.Markdown.Lines
import DocWeave.Proofs.Markdown.Steps
import DocWeave.Proofs.Markdown.Lookahead
import DocWeave.Proofs.Markdown.Containers
import DocWeave.Proofs.Markdown.Reading
import DocWeave.Proofs.Markdown.Comments
import DocWeave.Proofs.Page.Nonce
import DocWeave.Proofs.Page.Filling
import DocWeave.Proofs.Page.Sections
import DocWeave.Proofs.Text.Lines
import DocWeave.Proofs.Page.Joined
import DocWeave.Proofs.Page.Replacing
import DocWeave.Proofs.Page.Lossless
import DocWeave.Proofs.Json
import DocWeave.Proofs.Page.Json
import DocWeave.Proofs.Directive.Names
import DocWeave.Proofs.Directive.Values
import DocWeave.Proofs.Sphinx.RequestText
import DocWeave.Proofs.Sphinx.RequestLines
import DocWeave.Proofs.Files.Stores
import DocWeave.Proofs.Files.Creating
import DocWeave.Proofs.Sphinx.Naming
import DocWeave.Proofs.Sphinx.Confined
import DocWeave.Proofs.Sphinx.StandIn
import DocWeave.Proofs.Sphinx.Sharing
import DocWeave.Proofs.CommandLine.Targets
import DocWeave.Proofs.CommandLine.Interleaving
import DocWeave.Proofs.CommandLine.Invariant
import DocWeave.Proofs.CommandLine.Independence
import DocWeave.Proofs.Page.Fenced
import DocWeave.Proofs.Page.Directives
import DocWeave.Proofs.Page.CodeFences
import DocWeave.Proofs.Xml.Content
import DocWeave.Proofs.Xml.Events
import DocWeave.Proofs.Xml.Truncation
import DocWeave.Proofs.Xml.Written
import DocWeave.Proofs.Node.Headings
import DocWeave.Proofs.Node.ReadBack
import DocWeave.Proofs.Sphinx.ConfProgram
import DocWeave.Proofs.Settings.Loading
import DocWeave.Proofs.Settings.Overriding
import DocWeave.Proofs.Settings.Absolute
import DocWeave.Proofs.Sphinx.Leftovers
import DocWeave.Proofs.Description.Anchors
import DocWeave.Proofs.Xml.Layout
import DocWeave.Proofs.Description.Headings
import DocWeave.Proofs.Description.VisibleText
import DocWeave.Proofs.Page.Headings
import DocWeave.Proofs.Description.Partition
import DocWeave.Proofs.Directive.Grammar
import DocWeave.Proofs.Directive.Attributes
import DocWeave.Proofs.Page.Rereading
import DocWeave.Proofs.CommandLine.Planning
import DocWeave.Proofs.Xml.References
import DocWeave.Proofs.Xml.TextRuns
