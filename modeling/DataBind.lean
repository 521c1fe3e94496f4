import DataBind.Main
import DataBind.Proofs.Markup.Growth
import DataBind.Proofs.Markup.Traversal
import DataBind.Proofs.Block.Brackets
import DataBind.Proofs.Block.Pairing
import DataBind.Proofs.Block.Matching
import DataBind.Proofs.Block.Blame
import DataBind.Proofs.Block.Dangling
import DataBind.Proofs.Template.Assembly
import DataBind.Proofs.Template.Interpretation
import DataBind.Proofs.Markup.Building
import DataBind.Proofs.Markup.Readable
import DataBind.Proofs.Markup.EndTag
import DataBind.Proofs.Markup.RawText
import DataBind.Proofs.Template.Agreement
import DataBind.Proofs.Template.Injection
import DataBind.Proofs.Template.Literal
import DataBind.Proofs.Text.Trimming
import DataBind.Proofs.Text.Cutting
import DataBind.Proofs.Text.Lowering
import DataBind.Proofs.Text.Words
import DataBind.Proofs.Binding.Entry
import DataBind.Proofs.Binding.Scanning
import DataBind.Proofs.Binding.Literal
import DataBind.Proofs.Template.Container
import DataBind.Proofs.Expr.Grammar
import DataBind.Proofs.Expr.Readers
import DataBind.Proofs.Expr.Parsing
import DataBind.Proofs.Expr.Writing
import DataBind.Proofs.Markup.Settled
import DataBind.Proofs.Markup.Realizing
import DataBind.Proofs.Markup.RoundTrip
import DataBind.Proofs.Expr.Spelling
import DataBind.Proofs.Expr.Bracketing
import DataBind.Proofs.Binding.Expressions
import DataBind.Proofs.Expr.Closing
import DataBind.Proofs.Expr.Negation
import DataBind.Proofs.Template.Negation
import DataBind.Proofs.Markup.Asking
import DataBind.Proofs.Template.Passes
import DataBind.Proofs.Binding.Container
import DataBind.Proofs.Template.Reach
import DataBind.Proofs.Template.Composition
import DataBind.Proofs.Template.Outcome
import DataBind.Proofs.Markup.Recursion
import DataBind.Proofs.Markup.Forest
import DataBind.Proofs.Context.Path
import DataBind.Proofs.Template.Consulted
import DataBind.Proofs.Template.Enclosing
import DataBind.Proofs.Context.Object
import DataBind.Proofs.Markup.Recasting
import DataBind.Proofs.Template.Renaming
import DataBind.Proofs.Template.StartTag
import DataBind.Proofs.Template.Repetition
import DataBind.Proofs.Template.Classes
import DataBind.Proofs.Template.Warnings
import DataBind.Proofs.Binding.Marker
import DataBind.Proofs.Style.Declarations
import DataBind.Proofs.Expr.Numbers
import DataBind.Proofs.Expr.Lexemes
import DataBind.Proofs.Markup.TagExtent
import DataBind.Proofs.Markup.ConstructExtent
import DataBind.Proofs.Markup.Unended
import DataBind.Proofs.Expr.Escapes
import DataBind.Proofs.Expr.Literals
import DataBind.Proofs.Text.Pieces
import DataBind.Proofs.Builtin.Splitting
import DataBind.Proofs.Number.Naturals
import DataBind.Proofs.Builtin.Positions
import DataBind.Proofs.Builtin.Slicing
import DataBind.Proofs.Value.Looseness
import DataBind.Proofs.Expr.Places
import DataBind.Proofs.Expr.Stopping
import DataBind.Proofs.Expr.Beginnings
import DataBind.Proofs.Style.Naming
import DataBind.Proofs.Markup.Moments
import DataBind.Proofs.Template.Skipping
import DataBind.Proofs.Cursor.Loop
import DataBind.Proofs.Cursor.Slice
import DataBind.Proofs.Cursor.Attributes
import DataBind.Proofs.Cursor.Construct
import DataBind.Proofs.Cursor.Markup
import DataBind.Proofs.Cursor.Tokens
import DataBind.Proofs.Cursor.Literals
import DataBind.Proofs.Cursor.Totality
