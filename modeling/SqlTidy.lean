import SqlTidy.Binary64.Basic
import SqlTidy.Binary64.Display
import SqlTidy.CaseStyle
import SqlTidy.ConfigFile
import SqlTidy.Draft
import SqlTidy.Fault
import SqlTidy.Format
import SqlTidy.Layout.Basic
import SqlTidy.Layout.Page
import SqlTidy.Layout.Role
import SqlTidy.Literal
import SqlTidy.Options.Basic
import SqlTidy.Options.Field
import SqlTidy.Options.Lenient
import SqlTidy.Options.Strict
import SqlTidy.Placeholder
import SqlTidy.Proofs.Absorption
import SqlTidy.Proofs.Character
import SqlTidy.Proofs.Content
import SqlTidy.Proofs.Draft
import SqlTidy.Proofs.LetterCase
import SqlTidy.Proofs.Levels
import SqlTidy.Proofs.LineComment
import SqlTidy.Proofs.Literal
import SqlTidy.Proofs.Marked
import SqlTidy.Proofs.OpenQuote
import SqlTidy.Proofs.Outline
import SqlTidy.Proofs.Place
import SqlTidy.Proofs.Placeholder
import SqlTidy.Proofs.Recase
import SqlTidy.Proofs.Respacing
import SqlTidy.Proofs.RoundTrip
import SqlTidy.Proofs.Separator
import SqlTidy.Proofs.Spacing
import SqlTidy.Proofs.Statements
import SqlTidy.Proofs.Tokens
import SqlTidy.Proofs.Unclosed
import SqlTidy.Proofs.Weave
import SqlTidy.Recase
import SqlTidy.Step
import SqlTidy.Table
import SqlTidy.Text.Alphanumeric
import SqlTidy.Text.Basic
import SqlTidy.Text.Blank
import SqlTidy.Text.CaseRun
import SqlTidy.Text.Cut
import SqlTidy.Text.DecimalDigit
import SqlTidy.Text.Display
import SqlTidy.Text.Lower
import SqlTidy.Text.Numeral
import SqlTidy.Text.Printable
import SqlTidy.Text.Quoted
import SqlTidy.Text.Splice
import SqlTidy.Text.Switches
import SqlTidy.Text.Upper
import SqlTidy.Token
import SqlTidy.Toml.Basic
import SqlTidy.Toml.Document
import SqlTidy.Toml.Moment
import SqlTidy.Toml.Number
import SqlTidy.Toml.Parse
import SqlTidy.Toml.Quoted
import SqlTidy.Value
import SqlTidy.Vocabulary
import SqlTidy.Proofs.Settings
import SqlTidy.Proofs.ConfigFile
import SqlTidy.Proofs.LiteralTable
import SqlTidy.Proofs.Interchange
import SqlTidy.Proofs.QuotedSpan
import SqlTidy.Proofs.TokenForm
import SqlTidy.Proofs.NormalForm
import SqlTidy.Proofs.BlankChange
import SqlTidy.Proofs.BareText
import SqlTidy.Proofs.TokenSpans
import SqlTidy.Proofs.WordRuns
import SqlTidy.Proofs.Indentation
import SqlTidy.Proofs.TextLimit
import SqlTidy.Proofs.PageLines
import SqlTidy.Proofs.Splice
import SqlTidy.Proofs.Derivation
import SqlTidy.Proofs.Keywords
