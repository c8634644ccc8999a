/-!
# Lines of a text

A text falls into lines at its line breaks: line feed, carriage return, the pair of both, vertical
tab, form feed, the separators U+001C to U+001E, next line, and the line and paragraph separators.
`brokenLines` keeps each line together with the break that ends it, so that nothing of the text is
lost (`flatten_brokenLines`); `lines` drops the breaks. A text that ends in a break has no empty
line after it.

Files and standard input are read with every carriage return, alone or before a line feed, turned
into a line feed (`withLineFeeds`).
-/

set_option autoImplicit false
set_option relaxedAutoImplicit false

namespace WatTypes.Text

/-- Whether a character alone is a line break. -/
def isLineBreak (c : Char) : Bool :=
  c == '\n' || c == '\r' || c == '\x0b' || c == '\x0c' || c == '\x1c' || c == '\x1d' ||
    c == '\x1e' || c == '\u0085' || c == '\u2028' || c == '\u2029'

/-- Puts a character in front of the first line. -/
def consToFirstLine (c : Char) : List (List Char × List Char) → List (List Char × List Char)
  | [] => [([c], [])]
  | (line, ending) :: others => (c :: line, ending) :: others

/-- The lines of a text, each with the break that ends it; only the last break may be empty. -/
def brokenLines : List Char → List (List Char × List Char)
  | [] => []
  | '\r' :: '\n' :: rest => ([], ['\r', '\n']) :: brokenLines rest
  | c :: rest =>
    if isLineBreak c then ([], [c]) :: brokenLines rest
    else consToFirstLine c (brokenLines rest)

/-- The lines of a text without their breaks. -/
def lines (text : List Char) : List (List Char) := (brokenLines text).map Prod.fst

theorem flatMap_consToFirstLine (c : Char) (pieces : List (List Char × List Char)) :
    ((consToFirstLine c pieces).flatMap fun piece ↦ piece.1 ++ piece.2) =
      c :: pieces.flatMap fun piece ↦ piece.1 ++ piece.2 := by
  rcases pieces with _ | ⟨⟨line, ending⟩, others⟩ <;> simp [consToFirstLine]

/-- Nothing of a text is lost by cutting it into lines with their breaks. -/
theorem flatten_brokenLines (text : List Char) :
    ((brokenLines text).flatMap fun piece ↦ piece.1 ++ piece.2) = text := by
  fun_induction brokenLines text with
  | case1 => rfl
  | case2 rest ih => simp [ih]
  | case3 c rest _ _ ih => simp [ih]
  | case4 c rest _ _ ih => simp [flatMap_consToFirstLine, ih]

/-- A text with every carriage return, alone or before a line feed, turned into a line feed. -/
def withLineFeeds : List Char → List Char
  | [] => []
  | '\r' :: '\n' :: rest => '\n' :: withLineFeeds rest
  | c :: rest => (if c = '\r' then '\n' else c) :: withLineFeeds rest

/-- No carriage return is left. -/
theorem not_mem_withLineFeeds (text : List Char) : '\r' ∉ withLineFeeds text := by
  fun_induction withLineFeeds text with
  | case1 => simp
  | case2 rest ih => simpa using ih
  | case3 c rest _ ih =>
    simp only [List.mem_cons, not_or]
    refine ⟨?_, ih⟩
    split
    · decide
    · rename_i hc
      exact fun h ↦ hc h.symm

end WatTypes.Text
