/-!
# Positions and spans

A position counts lines and columns from one. Only a line feed starts a new line, and every other
character, whatever it is, moves one column on (`Position.after`). A span names a source and the
positions of the first and the last character it covers; the span of nothing, as at the end of a
source, ends one column before it starts.
-/

set_option autoImplicit false
set_option relaxedAutoImplicit false

namespace WatTypes

/-- A line and a column, both counted from one. -/
structure Position where
  /-- The line. -/
  line : Int
  /-- The column, in characters. -/
  column : Int
deriving DecidableEq, Repr

namespace Position

/-- The position of the first character of a source. -/
def first : Position := ⟨1, 1⟩

/-- The position of the character that follows `c`, where `c` stands at the given one. -/
def after (here : Position) (c : Char) : Position :=
  if c = '\n' then ⟨here.line + 1, 1⟩ else ⟨here.line, here.column + 1⟩

/-- The position that follows a run of characters. -/
def afterAll (here : Position) (taken : List Char) : Position := taken.foldl after here

/-- The last position of what ends just before a position, on the same line; the first column
stands for itself. -/
def lastBefore (here : Position) : Position :=
  ⟨here.line, if here.column > 1 then here.column - 1 else 1⟩

@[simp] theorem afterAll_nil (here : Position) : here.afterAll [] = here := rfl

@[simp] theorem afterAll_cons (here : Position) (c : Char) (taken : List Char) :
    here.afterAll (c :: taken) = (here.after c).afterAll taken := rfl

theorem afterAll_append (here : Position) (first second : List Char) :
    here.afterAll (first ++ second) = (here.afterAll first).afterAll second :=
  List.foldl_append

end Position

/-- A stretch of a named source, from the position of its first character to that of its last. -/
structure Span where
  /-- The name of the source. -/
  file : String
  /-- The position of the first character. -/
  first : Position
  /-- The position of the last character. -/
  last : Position
deriving DecidableEq, Repr

namespace Span

/-- The span of the single character at a position. -/
def single (file : String) (here : Position) : Span := ⟨file, here, here⟩

/-- The span from a position to just before another one. -/
def upTo (file : String) (first stop : Position) : Span := ⟨file, first, stop.lastBefore⟩

/-- Whether a span starts and ends on one line. -/
def isSingleLine (span : Span) : Bool := span.first.line == span.last.line

/-- The place a span starts at, as messages name it. -/
def location (span : Span) : String :=
  s!"{span.file}:{span.first.line}:{span.first.column}"

end Span

end WatTypes
