import DocBlock.Comment.Collection
import DocBlock.Comment.Reader
import DocBlock.Synthesis.Kinds
import DocBlock.Source.Lexer
import DocBlock.Source.Form
import DocBlock.Source.Parser.Basic
import DocBlock.Source.Parser.Params
import DocBlock.Source.Parser.Types
import DocBlock.Source.Parser.Classes
import DocBlock.Source.Parser.Elements
import DocBlock.Source.Parser.Expressions
import DocBlock.Source.Parser.Statements
import DocBlock.Source.Parser.Modules
import DocBlock.Source.Reader
import DocBlock.Source.Placing
import DocBlock.Options
import DocBlock.Program
import DocBlock.Files.Tree
import DocBlock.Glob.Pattern
import DocBlock.Files.Scan
import DocBlock.Config.Basic
import DocBlock.Cli.Arguments
import DocBlock.Config.Search
import DocBlock.Cli.Run
import DocBlock.Cli.Footprint
import DocBlock.Main
import DocBlock.Proofs.Text.Lines
import DocBlock.Proofs.Comment.InlineTags
import DocBlock.Proofs.Comment.TagLine
import DocBlock.Proofs.Comment.Canonical
import DocBlock.Proofs.Comment.Block
import DocBlock.Proofs.Comment.RoundTrip
import DocBlock.Proofs.Comment.Stable
import DocBlock.Proofs.Decl.Preorder
import DocBlock.Proofs.Source.Placed
import DocBlock.Proofs.Comment.Enrichment
import DocBlock.Proofs.Synthesis.Frame
import DocBlock.Proofs.Synthesis.Builders
import DocBlock.Proofs.Synthesis.Kinds
import DocBlock.Proofs.Synthesis.OwnEntries
import DocBlock.Proofs.Source.Words
import DocBlock.Proofs.Comment.TagKinds
import DocBlock.Proofs.Decl.Hosts
import DocBlock.Proofs.Source.Inlined
import DocBlock.Proofs.Synthesis.Filling
import DocBlock.Proofs.Synthesis.NamedTypes
import DocBlock.Proofs.Synthesis.Steps
import DocBlock.Proofs.Synthesis.Books
import DocBlock.Proofs.Synthesis.Numbering
import DocBlock.Proofs.Synthesis.InlineTypes
import DocBlock.Proofs.Synthesis.Properties
import DocBlock.Proofs.Comment.Gathering
import DocBlock.Proofs.Synthesis.Merging
import DocBlock.Proofs.Symbol.Table
import DocBlock.Proofs.Synthesis.FileOrder
import DocBlock.Proofs.Naming.LongNames
import DocBlock.Proofs.Synthesis.Failures
import DocBlock.Proofs.Synthesis.Unnamed
import DocBlock.Proofs.Comment.Fitting
import DocBlock.Proofs.TypeName.Fitting
import DocBlock.Proofs.Naming.Fitting
import DocBlock.Proofs.Synthesis.Blocks
import DocBlock.Proofs.Source.Layout
import DocBlock.Proofs.Files.Outputs
import DocBlock.Proofs.Files.Selection
import DocBlock.Proofs.TypeName.Grammar
import DocBlock.Proofs.TypeName.Reading
import DocBlock.Proofs.TypeName.Spelling
import DocBlock.Proofs.TypeName.Documented
import DocBlock.Proofs.Text.Replace
import DocBlock.Proofs.TypeName.Translation
import DocBlock.Proofs.TypeName.Linking
import DocBlock.Proofs.TypeName.Stable
import DocBlock.Proofs.TypeName.Agreement
import DocBlock.Proofs.Comment.Union
import DocBlock.Proofs.Symbol.Scopes
import DocBlock.Proofs.Comment.ParamTags
import DocBlock.Proofs.Synthesis.Parameters
import DocBlock.Proofs.Source.Returns
import DocBlock.Proofs.Comment.Kept
import DocBlock.Proofs.Decl.Growth
import DocBlock.Proofs.Path.Upwards
import DocBlock.Proofs.Config.Search
import DocBlock.Proofs.Synthesis.Recursion
