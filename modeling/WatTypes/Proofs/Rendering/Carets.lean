import WatTypes.Proofs.Rendering.SourceLines

/-!
# Carets under the source

Right below the line of source that a diagnostic shows, carets mark what its label covers. The
number of the line is padded to four digits, and the row of the carets has room for four digits too,
so that both rows start alike as long as the number has no more of them. Each further digit moves
the line of source by one character, but not the carets (`carets_under_source`).
-/

set_option autoImplicit false
set_option relaxedAutoImplicit false

namespace WatTypes

open Diagnostic

/-! ### The parts of a row -/

theorem Text.length_rightAligned (width : Nat) (text : String) :
    (rightAligned width text).length = max width text.length := by
  rw [rightAligned, String.length_append, String.length_ofList, List.length_replicate]
  omega

/-- A gutter without colours is as wide as a number of four digits needs, or as its number needs. -/
theorem length_gutter (number : String) :
    (gutter false number).length = max 4 number.length + 4 := by
  have hends : (gutter false number).length =
      "  ".length + ((Text.rightAligned 4 number).length + " |".length) := by
    rw [gutter, painted, if_neg (by decide), String.length_append, String.length_append]
  rw [hends, Text.length_rightAligned]
  simp only [show "  ".length = 2 from rfl, show " |".length = 2 from rfl]
  omega

/-- The number of a line has at most four digits up to 9999. -/
theorem length_toString_le_four_iff {number : Int} (h : 0 ≤ number) :
    (toString number).length ≤ 4 ↔ number ≤ 9999 := by
  obtain ⟨value, rfl⟩ := Int.eq_ofNat_of_zero_le h
  have hdigits : (toString (value : Int)).length ≤ 4 ↔ value < 10 ^ 4 :=
    Nat.length_repr_le_iff (by decide)
  rw [hdigits]
  omega

/-- The row of a line of source is the gutter, a space and the line. -/
theorem toList_sourceRow (number : Int) (line : String) :
    (sourceRow false number line).toList =
      (gutter false (toString number) ++ " ").toList ++ line.toList := String.toList_append

/-- The row of carets is the gutter of no number, spaces up to the column, and the carets. -/
theorem toList_carets (span : Span) :
    (carets false span).toList =
      (gutter false "" ++ " " ++ repeated (span.first.column - 1) ' ').toList ++
        List.replicate (max 1 (span.last.column - span.first.column + 1)).toNat '^' := by
  rw [carets, painted, if_neg (by decide), String.toList_append, repeated, repeated,
    String.toList_ofList]

theorem length_repeated (count : Int) (c : Char) : (repeated count c).length = count.toNat := by
  rw [repeated, String.length_ofList, List.length_replicate]

theorem length_padding (column : Int) :
    (gutter false "" ++ " " ++ repeated (column - 1) ' ').length = 9 + (column - 1).toNat := by
  rw [String.length_append, String.length_append, length_gutter, length_repeated]
  rfl

/-- No caret stands in front of the carets. -/
theorem notMem_padding (column : Int) :
    '^' ∉ (gutter false "" ++ " " ++ repeated (column - 1) ' ').toList := by
  rw [String.toList_append, List.mem_append, not_or, repeated, String.toList_ofList]
  refine ⟨by decide, fun hmem ↦ ?_⟩
  exact absurd (List.eq_of_mem_replicate hmem) (by decide)

/-! ### Labels -/

/-- Below the place of a label stand the line of source and the row of carets, and then what is said
about it. -/
theorem renderLabel_eq {sources : String → Option String} {label : Label} {line : String}
    (hline : sourceLine? sources label = some line) (hsingle : label.span.isSingleLine = true) :
    renderLabel false sources label =
      ["  --> " ++ label.span.location, gutter false ""] ++
        [sourceRow false label.span.first.line line, carets false label.span] ++
        if label.message.isEmpty then [] else [gutter false "" ++ "   " ++ label.message] := by
  rw [renderLabel, hline, if_pos hsingle]
  rfl

/-- A line is shown only if its number is positive. -/
theorem one_le_of_sourceLine? {sources : String → Option String} {label : Label} {line : String}
    (h : sourceLine? sources label = some line) : 1 ≤ label.span.first.line := by
  obtain ⟨text, -, htext⟩ := Option.bind_eq_some_iff.mp h
  rw [Text.line?] at htext
  split at htext
  · assumption
  · cases htext

/-- Assumes: a line of source is shown for a label on a single line, whose first column is counted
from one. The carets, at least one of them, are at the end of the row right below the line of
source. They start as far into their row as the column is in that of the line, less the digits of
the number of the line behind its fourth; so they stand under the column exactly if there is no such
digit. -/
theorem carets_under_source {sources : String → Option String} {label : Label} {line : String}
    (hline : sourceLine? sources label = some line) (hsingle : label.span.isSingleLine = true)
    (hcolumn : 1 ≤ label.span.first.column) :
    ∃ above below front padding,
      renderLabel false sources label =
        above ++ [sourceRow false label.span.first.line line, carets false label.span] ++ below ∧
      (sourceRow false label.span.first.line line).toList = front ++ line.toList ∧
      (carets false label.span).toList = padding ++ List.replicate
        (max 1 (label.span.last.column - label.span.first.column + 1)).toNat '^' ∧
      '^' ∉ padding ∧
      (padding.length : Int) + ((toString label.span.first.line).length - 4 : Nat) =
        front.length + (label.span.first.column - 1) ∧
      ((padding.length : Int) = front.length + (label.span.first.column - 1) ↔
        label.span.first.line ≤ 9999) := by
  have hnumber := one_le_of_sourceLine? hline
  have hdigits := length_toString_le_four_iff (Int.le_of_lt hnumber)
  refine ⟨_, _, _, _, renderLabel_eq hline hsingle, toList_sourceRow _ line,
    toList_carets label.span, notMem_padding _, ?_⟩
  rw [String.length_toList, String.length_toList, length_padding, String.length_append,
    length_gutter]
  simp only [show " ".length = 1 from rfl]
  omega

/-- A label on the second and third character of the first line. -/
def keywordLabel : Label := ⟨⟨"", ⟨1, 2⟩, ⟨1, 3⟩⟩, "here"⟩

theorem carets_under_source_keywordLabel :
    ∃ front padding,
      (sourceRow false 1 "(memory)").toList = front ++ "(memory)".toList ∧
      (carets false keywordLabel.span).toList = padding ++ ['^', '^'] ∧
      (padding.length : Int) = front.length + 1 := by
  have hline : sourceLine? (Function.const String (some "(memory)")) keywordLabel =
      some "(memory)" := by decide +kernel
  obtain ⟨-, -, front, padding, -, hfront, hpadding, -, -, halign⟩ :=
    carets_under_source hline (by decide) (by decide)
  exact ⟨front, padding, hfront, hpadding, halign.mpr (by decide)⟩

/-- A parenthesis behind 9999 empty lines. -/
def longSource : String := String.ofList (List.replicate 9999 '\n' ++ [')'])

/-- A label on that parenthesis. -/
def longLabel : Label := ⟨.single "" ⟨10000, 1⟩, ""⟩

/-- The parenthesis is shown as the line that it is. -/
theorem sourceLine?_longLabel :
    sourceLine? (Function.const String (some longSource)) longLabel = some ")" := by
  have hfeeds (c : Char) (hc : c ∈ List.replicate 9999 '\n') : c = '\n' :=
    List.eq_of_mem_replicate hc
  have hat : Text.LineAt longSource.toList 10000 (List.replicate 9999 '\n') [')'] [] :=
    ⟨String.toList_ofList.symm, by rw [List.count_replicate_self],
      fun c hc ↦ hfeeds c (List.mem_of_getLast? hc), by decide, by simp⟩
  have hstray : Text.strayBreaks (List.replicate 9999 '\n') = 0 :=
    Text.strayBreaks_of_forall fun c hc _ ↦ hfeeds c hc
  have hnumber : longLabel.span.first.line = (10000 : Nat) := rfl
  rw [sourceLine?, Function.const_apply, Option.bind_some, hnumber, Text.line?_of_lineAt hat,
    if_pos hstray, if_neg (by decide)]
  rfl

/-- Under the ten thousandth line the caret stands one column too far to the left. -/
theorem carets_longLabel :
    ∃ line front padding,
      sourceLine? (Function.const String (some longSource)) longLabel = some line ∧
      longLabel.span.isSingleLine = true ∧ 1 ≤ longLabel.span.first.column ∧
      (sourceRow false longLabel.span.first.line line).toList = front ++ line.toList ∧
      (carets false longLabel.span).toList = padding ++ ['^'] ∧ '^' ∉ padding ∧
      (padding.length : Int) ≠ front.length + (longLabel.span.first.column - 1) :=
  ⟨")", "  10000 | ".toList, "       | ".toList, sourceLine?_longLabel, by decide, by decide,
    by decide, by decide, by decide, by decide⟩

end WatTypes
