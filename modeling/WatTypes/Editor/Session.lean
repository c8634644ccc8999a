import WatTypes.Canonical
import WatTypes.Editor.SourceText
import WatTypes.Text.Lines

/-!
# Editor sessions

What an editor asks of the type grammar while documents are open in it. A session holds for every
open document the last text of which reading did not break off, with its module or its faults, and
answers with diagnostics, symbols and formatting edits. A notice of a text of which reading breaks
off is lost: it changes no document, and nothing is published. Lines and characters are counted from
zero here, and the end of a range is the position behind its last character.
-/

set_option autoImplicit false
set_option relaxedAutoImplicit false

namespace WatTypes.Editor

/-- A line and a character in it, both counted from zero. -/
structure Point where
  /-- The line. -/
  line : Int
  /-- The character. -/
  character : Int
deriving DecidableEq, Repr

/-- A stretch of a document up to, and without, its end. -/
structure Range where
  /-- Where it starts. -/
  start : Point
  /-- Where it ends. -/
  stop : Point
deriving DecidableEq, Repr

/-- The range of a span. -/
def Range.ofSpan (span : Span) : Range :=
  ⟨⟨span.first.line - 1, span.first.column - 1⟩, ⟨span.last.line - 1, span.last.column⟩⟩

/-! ### Diagnostics -/

/-- How grave a marker is, as editors number it: an error, as all reports are. -/
def errorSeverity : Nat := 1

/-- What markers are said to come from. -/
def markerSource : String := "wattle"

/-- An error shown in an editor. -/
structure Marker where
  /-- What it covers. -/
  range : Range
  /-- How grave it is. -/
  severity : Nat
  /-- What it comes from. -/
  source : String
  /-- The code of the kind of error. -/
  code : String
  /-- What is wrong, with the code in front. -/
  message : SourceText
deriving DecidableEq, Repr

/-- A report at its first label; one without labels stands at the start. -/
def Marker.ofReport (report : Report) : Marker where
  range := match report.labels with
    | label :: _ => Range.ofSpan label.span
    | [] => ⟨⟨0, 0⟩, ⟨0, 0⟩⟩
  severity := errorSeverity
  source := markerSource
  code := report.code
  message := ⟨(SourceText.ofString s!"[{report.code}] ").codePoints ++ report.message.codePoints⟩

/-! ### Symbols -/

/-- The kinds of symbols that editors know, of which an outline has these. -/
inductive SymbolKind where
  /-- An interface. -/
  | interface
  /-- A function. -/
  | function
  /-- A variable. -/
  | var
  /-- An array. -/
  | array
  /-- An object. -/
  | object
deriving DecidableEq, Repr

namespace SymbolKind

/-- The number of a kind. -/
def number : SymbolKind → Nat
  | .interface => 11
  | .function => 12
  | .var => 13
  | .array => 18
  | .object => 19

/-- The kind of symbol that a declaration is shown as. -/
def ofDeclaration : Declaration → SymbolKind
  | .type _ => .interface
  | .global _ => .var
  | .table _ => .array
  | .memory _ => .object
  | .func _ => .function

end SymbolKind

/-- A declaration in the outline that an editor shows. -/
structure DocumentSymbol where
  /-- The identifier with its dollar sign, or the keyword in angle brackets. -/
  name : String
  /-- What kind of symbol it is. -/
  kind : SymbolKind
  /-- The type in canonical form, unless it is empty. -/
  detail : Option String
  /-- Where the declaration stands: its keyword. -/
  range : Range
  /-- What is selected when the symbol is picked. -/
  selection : Range
deriving DecidableEq, Repr

/-- The type that a declaration shows in an outline. -/
def typeLexemes : Declaration → List Lexeme
  | .type signature => signature.lexemes
  | .global ty => ty.lexemes
  | .table ty => ty.lexemes
  | .memory ty => ty.lexemes
  | .func use => use.lexemes

/-- The symbol of a field. -/
def DocumentSymbol.ofField (field : Field) : DocumentSymbol where
  name := match field.id with
    | some id => "$" ++ id.name
    | none => "<" ++ field.declaration.keyword ++ ">"
  kind := .ofDeclaration field.declaration
  detail :=
    let detail := Lexeme.spaced (typeLexemes field.declaration)
    if detail.isEmpty then none else some detail
  range := .ofSpan field.span
  selection := .ofSpan field.span

/-! ### Documents and sessions -/

/-- The replacement of a range by a text. -/
structure TextEdit where
  /-- What is replaced. -/
  range : Range
  /-- The new text. -/
  newText : String
deriving DecidableEq, Repr

/-- The text of a document, and its module or its faults. -/
structure Document where
  /-- The text. -/
  text : SourceText
  /-- The module that the text holds, or what is wrong with it. -/
  outcome : Except (List Report) TypeModule

namespace Document

/-- The document with a given text, unless reading the text breaks off. -/
def ofText? (uri : String) (text : SourceText) : Option Document :=
  (text.read? uri).map fun outcome ↦ ⟨text, outcome⟩

/-- The module of a document without faults. -/
def module? (document : Document) : Option TypeModule := document.outcome.toOption

/-- What is wrong with a document. -/
def markers (document : Document) : List Marker :=
  match document.outcome with
  | .ok _ => []
  | .error reports => reports.map .ofReport

/-- The symbols of a document: none while it has faults. -/
def symbols (document : Document) : List DocumentSymbol :=
  match document.module? with
  | some m => m.fields.map .ofField
  | none => []

/-- The edits that bring a document into canonical form: nothing while it has faults, otherwise
none or one, which covers all its lines. -/
def formatting (document : Document) : Option (List TextEdit) :=
  document.module?.map fun m ↦
    let text := m.canonicalText TypeModule.standardIndent
    if .ofString text = document.text then []
    else
      let lineCount := (Text.lines document.text.seen.toList).length
      [⟨⟨⟨0, 0⟩, ⟨lineCount + 1, 0⟩⟩, text⟩]

end Document

/-- The open documents by their names; the first entry of a name counts. -/
structure Session where
  /-- The documents. -/
  documents : List (String × Document)

/-- What an editor reports. -/
inductive Notice where
  /-- A document has been opened with a text. -/
  | opened (uri : String) (text : SourceText)
  /-- A document has been changed; each text replaces the whole of it. -/
  | changed (uri : String) (texts : List SourceText)
  /-- A document has been closed. -/
  | closed (uri : String)
deriving DecidableEq, Repr

namespace Notice

/-- The document that a notice is about. -/
def uri : Notice → String
  | .opened uri _ => uri
  | .changed uri _ => uri
  | .closed uri => uri

/-- The text that a notice gives its document, unless it closes it: the last text of a change, and
the empty one if the change has none. -/
def text? : Notice → Option SourceText
  | .opened _ text => some text
  | .changed _ texts => some (texts.getLast?.getD "")
  | .closed _ => none

/-- The document with the text that a notice gives it, unless reading the text breaks off. -/
def document? (notice : Notice) : Option Document :=
  notice.text?.bind (Document.ofText? notice.uri)

/-- The diagnostics that are published at a notice, and the document that they are about. -/
def published (notice : Notice) : Option (String × List Marker) :=
  notice.document?.map fun document ↦ (notice.uri, document.markers)

end Notice

namespace Session

/-- The session with no document open. -/
def empty : Session := ⟨[]⟩

/-- The document with a name. -/
def document? (session : Session) (uri : String) : Option Document := session.documents.lookup uri

/-- Closes a document. -/
def close (session : Session) (uri : String) : Session :=
  ⟨session.documents.filter (·.1 ≠ uri)⟩

/-- Puts a document in place of the one with its name. -/
def put (session : Session) (uri : String) (document : Document) : Session :=
  ⟨(uri, document) :: (session.close uri).documents⟩

/-- The session after a notice. -/
def step (session : Session) (notice : Notice) : Session :=
  match notice with
  | .closed uri => session.close uri
  | .opened uri _ | .changed uri _ =>
    match notice.document? with
    | some document => session.put uri document
    | none => session

/-- The symbols of a document: none unless it is open and without faults. -/
def symbols (session : Session) (uri : String) : List DocumentSymbol :=
  ((session.document? uri).map Document.symbols).getD []

/-- The edits that bring a document into canonical form, if it is open and without faults. -/
def formatting (session : Session) (uri : String) : Option (List TextEdit) :=
  (session.document? uri).bind Document.formatting

/-- The names of the open documents, in ascending order. -/
def openNames (session : Session) : List String :=
  (session.documents.map Prod.fst).mergeSort fun first second ↦ decide (first ≤ second)

/-- The names of the open documents without faults, in ascending order. -/
def readNames (session : Session) : List String :=
  session.openNames.filter fun uri ↦ ((session.document? uri).bind Document.module?).isSome

end Session

end WatTypes.Editor
