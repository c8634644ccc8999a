import WatTypes.Diagnostic
import WatTypes.Text.Lines

/-!
# Diagnostics for a terminal

A diagnostic is shown as a header, one block for each label and one line for each note. A block
names the place, then shows the line of the source that the label starts on, a row of carets under
the text it covers if that lies on one line, and the message of the label if it has one. Left of
these runs a gutter of fixed width, which holds the number of the line. Colours are added around
pieces of the text and change nothing else.
-/

set_option autoImplicit false
set_option relaxedAutoImplicit false

namespace WatTypes

/-- The line of a text with a given number, counted from one. -/
def Text.line? (text : String) (number : Int) : Option String :=
  if 1 ≤ number then
    ((lines text.toList)[number.toNat - 1]?).map String.ofList
  else none

/-- A text padded with spaces on its left to a width. -/
def Text.rightAligned (width : Nat) (text : String) : String :=
  String.ofList (List.replicate (width - text.length) ' ') ++ text

namespace Diagnostic

/-- The control sequences that rendering uses. -/
inductive Style where
  /-- What is wrong. -/
  | error
  /-- Emphasis. -/
  | strong
  /-- The frame of a diagnostic. -/
  | frame
  /-- The end of a style. -/
  | plain
deriving DecidableEq, Repr

/-- The control sequence of a style. -/
def Style.code : Style → String
  | .error => "\x1b[1;31m"
  | .strong => "\x1b[1m"
  | .frame => "\x1b[1;34m"
  | .plain => "\x1b[0m"

/-- A text in a style, if colours are wanted. -/
def painted (color : Bool) (style : Style) (text : String) : String :=
  if color then style.code ++ text ++ Style.plain.code else text

/-- The gutter of a line, with the number that stands in it. -/
def gutter (color : Bool) (number : String) : String :=
  "  " ++ painted color .frame (Text.rightAligned 4 number ++ " |")

/-- A character repeated. A negative count is none. -/
def repeated (count : Int) (c : Char) : String := String.ofList (List.replicate count.toNat c)

/-- The row of carets under the text of a span on a single line: at least one caret. -/
def carets (color : Bool) (span : Span) : String :=
  gutter color "" ++ " " ++ repeated (span.first.column - 1) ' ' ++
    painted color .error (repeated (max 1 (span.last.column - span.first.column + 1)) '^')

/-- The line of source that a label starts on, where `sources` gives the texts that are at hand. -/
def sourceLine? (sources : String → Option String) (label : Label) : Option String :=
  (sources label.span.file).bind (Text.line? · label.span.first.line)

/-- The row of a line of source, with its number in the gutter. -/
def sourceRow (color : Bool) (number : Int) (line : String) : String :=
  gutter color (toString number) ++ " " ++ line

/-- The lines for a label, where `sources` gives the texts that are at hand. -/
def renderLabel (color : Bool) (sources : String → Option String) (label : Label) : List String :=
  let span := label.span
  let place := ["  " ++ painted color .frame "-->" ++ " " ++ span.location, gutter color ""]
  let source := (sourceLine? sources label).map (sourceRow color span.first.line)
  let marks := if span.isSingleLine then [carets color span] else []
  let remark :=
    if label.message.isEmpty then []
    else [gutter color "" ++ "   " ++ painted color .error label.message]
  place ++ source.toList ++ marks ++ remark

/-- The header of a diagnostic. -/
def header (color : Bool) (diagnostic : Diagnostic) : String :=
  painted color .error ("error[" ++ diagnostic.code ++ "]") ++
    painted color .strong (": " ++ diagnostic.message)

/-- The line for a note. -/
def renderNote (color : Bool) (note : String) : String :=
  "  " ++ painted color .frame "=" ++ " note: " ++ note

/-- The lines of a diagnostic. -/
def renderLines (color : Bool) (sources : String → Option String) (diagnostic : Diagnostic) :
    List String :=
  header color diagnostic :: diagnostic.labels.flatMap (renderLabel color sources) ++
    diagnostic.notes.map (renderNote color)

/-- A diagnostic as text. -/
def render (color : Bool) (sources : String → Option String) (diagnostic : Diagnostic) : String :=
  String.intercalate "\n" (renderLines color sources diagnostic)

end Diagnostic

end WatTypes
