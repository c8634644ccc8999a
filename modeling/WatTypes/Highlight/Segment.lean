import WatTypes.Highlight.Rules
import WatTypes.Text.Lines

/-!
# Highlighted text

Highlighting cuts a text into segments. At each place the first rule of the mode that matches gives
the next segment; where none does, a single character is a segment of its own, an error. A document
is highlighted without a byte order mark at its start, with its line breaks as line feeds, without
line feeds at its ends but for a final one (`segmentsOfDocument`).
-/

set_option autoImplicit false
set_option relaxedAutoImplicit false

namespace WatTypes.Highlight

/-- A piece of highlighted text. -/
structure Segment where
  /-- Its category. -/
  category : Category
  /-- Its characters. -/
  text : List Char
deriving DecidableEq, Repr

/-- The modes around a place: the current one, and those it was entered from. -/
structure Modes where
  /-- The current mode. -/
  current : Mode
  /-- The modes that it was entered from, the latest one first. -/
  outer : List Mode
deriving DecidableEq, Repr

namespace Modes

/-- Outside of everything. -/
def start : Modes := ⟨.plain, []⟩

/-- The modes behind a match. The outermost mode is never left. -/
def shifted (modes : Modes) : Shift → Modes
  | .stay => modes
  | .enter mode => ⟨mode, modes.current :: modes.outer⟩
  | .leave =>
    match modes.outer with
    | [] => modes
    | mode :: outer => ⟨mode, outer⟩

end Modes

/-- The first rule of a mode that matches at a place. -/
def firstMatch? (mode : Mode) (before : Option Char) (cs : List Char) : Option Rule :=
  (rules mode).find? fun rule ↦ rule.matcher before cs ≠ 0

/-- The segments from a place on, and the modes at the end of the text. -/
def segmentsFrom (modes : Modes) (before : Option Char) : List Char → List Segment × Modes
  | [] => ([], modes)
  | c :: rest =>
    match firstMatch? modes.current before (c :: rest) with
    | none =>
      let (segments, final) := segmentsFrom modes (some c) rest
      (⟨.error, [c]⟩ :: segments, final)
    | some rule =>
      let length := rule.matcher before (c :: rest) - 1
      let taken := c :: rest.take length
      let (segments, final) :=
        segmentsFrom (modes.shifted rule.shift) taken.getLast? (rest.drop length)
      (⟨rule.category, taken⟩ :: segments, final)
termination_by cs => cs.length
decreasing_by
  · simp
  · simp only [List.length_drop, List.length_cons]
    omega

/-- The segments of a text as it is. -/
def segments (text : List Char) : List Segment := (segmentsFrom .start none text).1

/-- A text without line feeds at its ends but for a final one. -/
def withFinalLineFeed (text : List Char) : List Char :=
  ((text.dropWhile (· = '\n')).reverse.dropWhile (· = '\n')).reverse ++ ['\n']

/-- A text without a byte order mark at its start. -/
def withoutByteOrderMark : List Char → List Char
  | '\ufeff' :: rest => rest
  | text => text

/-- The segments of a document. -/
def segmentsOfDocument (document : String) : List Segment :=
  segments (withFinalLineFeed (Text.withLineFeeds (withoutByteOrderMark document.toList)))

/-! ### Colours -/

/-- A piece of a line in the colour of a category. -/
def colored (category : Category) (piece : List Char) : String :=
  match category.color? with
  | some color => color ++ String.ofList piece ++ "\x1b[39;49;00m"
  | none => String.ofList piece

/-- A segment for a terminal: colours end before every line feed and start again behind it. -/
def Segment.colored (segment : Segment) : String :=
  String.join ((Text.brokenLines segment.text).map fun (line, ending) ↦
    if ending = ['\n'] then Highlight.colored segment.category line ++ "\n"
    else Highlight.colored segment.category (line ++ ending))

/-- A document in colours. -/
def coloredDocument (document : String) : String :=
  String.join ((segmentsOfDocument document).map Segment.colored)

end WatTypes.Highlight
