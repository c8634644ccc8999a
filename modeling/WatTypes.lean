import WatTypes.Text.Blank
import WatTypes.Text.DecimalDigit
import WatTypes.Text.WordCharacter
import WatTypes.Text.Printable
import WatTypes.Text.Lines
import WatTypes.Text.Quoted
import WatTypes.Text.HexNumeral
import WatTypes.Text.ControlSequence
import WatTypes.Text.Similarity
import WatTypes.Lexeme.Scan
import WatTypes.Cursor.Script
import WatTypes.Grammar.Production
import WatTypes.Grammar.Derivation
import WatTypes.Grammar.Module
import WatTypes.Canonical
import WatTypes.Outline
import WatTypes.Tree.WellFormed
import WatTypes.Tree.Erasure
import WatTypes.Tree.Relocation
import WatTypes.Diagnostic.Sources
import WatTypes.Editor.Session
import WatTypes.Highlight.Segment
import WatTypes.Toml.Document
import WatTypes.Settings
import WatTypes.CommandLine.Run
import WatTypes.Main
import WatTypes.Proofs.Acceptance
import WatTypes.Proofs.Acceptance.Module
import WatTypes.Proofs.Balance
import WatTypes.Proofs.CorrectPrefix
import WatTypes.Proofs.Denotation
import WatTypes.Proofs.Nesting
import WatTypes.Proofs.Normalisation
import WatTypes.Proofs.RoundTrip
import WatTypes.Proofs.Stability
import WatTypes.Proofs.Lexical.Number
import WatTypes.Proofs.Lexical.Literal
import WatTypes.Proofs.Lexical.Gap
import WatTypes.Proofs.SpanIndependence
import WatTypes.Proofs.Arrangement
import WatTypes.Proofs.Lexical.Offset
import WatTypes.Proofs.Lexical.Slice
import WatTypes.Proofs.Tiling
import WatTypes.Proofs.DepthLimit
import WatTypes.Proofs.Lookahead
import WatTypes.Proofs.Wording
import WatTypes.Proofs.Lexical.Tokenized
import WatTypes.Proofs.Sources
import WatTypes.Proofs.NestingBound
import WatTypes.Proofs.Relocation
import WatTypes.Proofs.Concatenation
import WatTypes.Proofs.Editing
import WatTypes.Proofs.Lexical.Escapes
import WatTypes.Proofs.Highlighting.Cuts
import WatTypes.Proofs.Highlighting.Plain
import WatTypes.Proofs.Highlighting
import WatTypes.Proofs.CursorDiscipline
import WatTypes.Proofs.FileShape
import WatTypes.Proofs.SettingsText
import WatTypes.Proofs.CanonicalForm
import WatTypes.Proofs.Outlining.Quotation
import WatTypes.Proofs.Outlining.Parts
import WatTypes.Proofs.Outlining
import WatTypes.Proofs.Formatting.Runs
import WatTypes.Proofs.Formatting
import WatTypes.Proofs.FileLocations
import WatTypes.Proofs.FormattingModes
import WatTypes.Proofs.GroupOrder
import WatTypes.Proofs.Editing.Convergence
import WatTypes.Proofs.Lexical.Decoding
import WatTypes.Proofs.Leniency
import WatTypes.Proofs.Lexical.Magnitude
import WatTypes.Proofs.Lexical.Unsigned
import WatTypes.Proofs.Enclosure
import WatTypes.Proofs.Rendering.SourceLines
import WatTypes.Proofs.Rendering.Carets
import WatTypes.Proofs.OptionalElements
import WatTypes.Proofs.AnonymousSignatures
import WatTypes.Proofs.OlderSpelling
import WatTypes.Proofs.ShortestSignature
import WatTypes.Proofs.Gathering
import WatTypes.Proofs.Layout.Literal
import WatTypes.Proofs.Rendering.Colors
