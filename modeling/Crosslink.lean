import Crosslink.Command.Arguments
import Crosslink.Command.Basic
import Crosslink.Config.Basic
import Crosslink.Config.Formats
import Crosslink.Config.Layer
import Crosslink.Config.Source
import Crosslink.Files.Basic
import Crosslink.Files.Scan
import Crosslink.Footnote
import Crosslink.Index.Declaration
import Crosslink.Index.Document
import Crosslink.Index.Tree
import Crosslink.Json.Basic
import Crosslink.Json.Markup
import Crosslink.Json.Printer
import Crosslink.Json.Reading
import Crosslink.Json.Tree
import Crosslink.Main
import Crosslink.Markdown.Container
import Crosslink.Markdown.Definition
import Crosslink.Markdown.Document
import Crosslink.Markdown.FrontMatter
import Crosslink.Markdown.Html
import Crosslink.Markdown.Inline
import Crosslink.Markdown.Leaf
import Crosslink.Markdown.Lexeme
import Crosslink.Markdown.Line
import Crosslink.Markdown.Reading
import Crosslink.Markdown.Shape
import Crosslink.Markdown.SourceBlock
import Crosslink.Markdown.Structure
import Crosslink.Markdown.Unfinished
import Crosslink.Markup.Block
import Crosslink.Markup.Span
import Crosslink.Outline.Levels
import Crosslink.Outline.Sections
import Crosslink.Outline.Slug
import Crosslink.Path.Basic
import Crosslink.Path.Url
import Crosslink.Problem
import Crosslink.Report.Contents
import Crosslink.Report.Fatal
import Crosslink.Report.Problems
import Crosslink.Report.Styled
import Crosslink.Resolution.Failure
import Crosslink.Resolution.LinkId
import Crosslink.Resolution.Pass
import Crosslink.Resolution.Phases
import Crosslink.Resolution.Scope
import Crosslink.Resolution.Target
import Crosslink.Resolution.WorkerPool
import Crosslink.Text.Basic
import Crosslink.Text.Scan
import Crosslink.Toml.Document
import Crosslink.Toml.Scalar
import Crosslink.Toml.Token
import Crosslink.Toml.Value
import Crosslink.Tree
import Crosslink.Unicode.Alphanumeric
import Crosslink.Unicode.Bounds
import Crosslink.Unicode.Case
import Crosslink.Unicode.White
import Crosslink.Proofs.AliasChain
import Crosslink.Proofs.Nodes
import Crosslink.Proofs.Tree
import Crosslink.Proofs.WorkerPool
import Crosslink.Proofs.Yields
import Crosslink.Proofs.Becomes
import Crosslink.Proofs.Pass
import Crosslink.Proofs.Outline
import Crosslink.Proofs.Phases
import Crosslink.Proofs.Reporting
import Crosslink.Proofs.Index
import Crosslink.Proofs.Anchors
import Crosslink.Proofs.Links
import Crosslink.Proofs.Pending
import Crosslink.Proofs.Verdict
import Crosslink.Proofs.Precedence
import Crosslink.Proofs.Completeness
import Crosslink.Proofs.Nesting
import Crosslink.Proofs.Markdown
import Crosslink.Proofs.Stable
import Crosslink.Proofs.Scan
import Crosslink.Proofs.Names
import Crosslink.Proofs.Repetition
import Crosslink.Proofs.Numbering
import Crosslink.Proofs.Notes
import Crosslink.Proofs.Completion
import Crosslink.Proofs.Lockstep
import Crosslink.Proofs.SinglePass
import Crosslink.Proofs.Slugs
import Crosslink.Proofs.Mapping
import Crosslink.Proofs.Memory
import Crosslink.Proofs.Content
import Crosslink.Proofs.Dictionary
import Crosslink.Proofs.Ascent
import Crosslink.Proofs.Inheritance
import Crosslink.Proofs.Schedule
import Crosslink.Proofs.Position
import Crosslink.Proofs.Landmarks
import Crosslink.Proofs.Distinct
import Crosslink.Proofs.Pieces
import Crosslink.Proofs.Spelling
import Crosslink.Proofs.PathText
import Crosslink.Proofs.RoundTrip
import Crosslink.Proofs.Inventory
import Crosslink.Proofs.Address
import Crosslink.Proofs.Forms
import Crosslink.Proofs.Sources
import Crosslink.Proofs.External
import Crosslink.Proofs.SectionTree
import Crosslink.Proofs.Headings
import Crosslink.Proofs.AliasCourse
import Crosslink.Proofs.Pairing
import Crosslink.Proofs.Nearest
import Crosslink.Proofs.OwnNumbers
import Crosslink.Proofs.Encounters
import Crosslink.Proofs.Fragments
import Crosslink.Proofs.Relative
import Crosslink.Proofs.FootnoteSequence
import Crosslink.Proofs.PathJoin
import Crosslink.Proofs.Surroundings
import Crosslink.Proofs.WrittenBack
import Crosslink.Proofs.FrontMatter
import Crosslink.Proofs.ReportGroups
import Crosslink.Proofs.AboveRoot
import Crosslink.Proofs.QuoteMarks
import Crosslink.Proofs.FreshIds
import Crosslink.Proofs.SmallLetters
import Crosslink.Proofs.Words
