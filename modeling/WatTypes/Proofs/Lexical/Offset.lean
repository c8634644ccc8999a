import Mathlib.Data.List.Induction
import WatTypes.Span

/-!
# Positions and spans by offset

The position of the character at an offset of a text counts the line feeds before it and the
characters since the last of them (`Position.ofOffset`). Moving on from character to character comes
to these positions (`ofOffset_eq_afterAll`), which differ from one character to another
(`ofOffset_inj`), so that a span covers at most one slice of a text (`Span.Covers.unique`).
-/

set_option autoImplicit false
set_option relaxedAutoImplicit false

namespace WatTypes

/-! ### Positions -/

namespace Position

/-- The position of the character at an offset of a text, or of the end of the text. -/
def ofOffset (text : List Char) (offset : Nat) : Position :=
  let before := text.take offset
  ⟨before.count '\n' + 1, (before.reverse.takeWhile (· ≠ '\n')).length + 1⟩

/-- Moving on from the start of a text counts the line feeds and the characters since the last. -/
theorem afterAll_first (before : List Char) :
    first.afterAll before =
      ⟨before.count '\n' + 1, (before.reverse.takeWhile (· ≠ '\n')).length + 1⟩ := by
  induction before using List.reverseRecOn with
  | nil => rfl
  | append_singleton before c ih =>
    rw [afterAll_append, ih, afterAll_cons, afterAll_nil, after]
    by_cases hfeed : c = '\n'
    · simp [hfeed]
    · simp [hfeed]

theorem ofOffset_eq_afterAll (text : List Char) (offset : Nat) :
    ofOffset text offset = first.afterAll (text.take offset) :=
  (afterAll_first _).symm

/-- The position behind characters in front of a text. -/
theorem ofOffset_append (before behind : List Char) :
    ofOffset (before ++ behind) before.length = first.afterAll before := by
  rw [ofOffset_eq_afterAll, List.take_left]

/-- Just before the position that follows a character, the character stands, unless it ends its
line. -/
theorem lastBefore_afterAll (front : List Char) {c : Char} (h : c ≠ '\n') :
    (first.afterAll (front ++ [c])).lastBefore = first.afterAll front := by
  have hcolumn : 1 ≤ (first.afterAll front).column := by
    rw [afterAll_first]
    simp only
    omega
  rw [afterAll_append, afterAll_cons, afterAll_nil, after, if_neg h, lastBefore, if_pos]
  · simp
  · simp only
    omega

/-- Before a position on its line, or on an earlier line. -/
def Precedes (here there : Position) : Prop :=
  here.line < there.line ∨ here.line = there.line ∧ here.column < there.column

theorem Precedes.trans {first second third : Position} (hfirst : first.Precedes second)
    (hsecond : second.Precedes third) : first.Precedes third := by
  unfold Precedes at *
  omega

theorem precedes_after (here : Position) (c : Char) : here.Precedes (here.after c) := by
  by_cases hfeed : c = '\n'
  · rw [after, if_pos hfeed]
    exact .inl (Int.lt_succ _)
  · rw [after, if_neg hfeed]
    exact .inr ⟨rfl, Int.lt_succ _⟩

/-- Positions grow from character to character. -/
theorem precedes_afterAll (here : Position) {taken : List Char} (h : taken ≠ []) :
    here.Precedes (here.afterAll taken) := by
  induction taken generalizing here with
  | nil => exact absurd rfl h
  | cons c rest ih =>
    by_cases hrest : rest = []
    · subst hrest
      exact here.precedes_after c
    · exact (here.precedes_after c).trans (ih (here.after c) hrest)

/-- Positions grow with their offsets. -/
theorem ofOffset_precedes {text : List Char} {first second : Nat} (hlt : first < second)
    (hlength : second ≤ text.length) : (ofOffset text first).Precedes (ofOffset text second) := by
  have hsplit : text.take second = text.take first ++ (text.drop first).take (second - first) := by
    rw [← List.take_add, Nat.add_sub_cancel' (Nat.le_of_lt hlt)]
  rw [ofOffset_eq_afterAll, ofOffset_eq_afterAll, hsplit, afterAll_append]
  apply precedes_afterAll
  apply List.ne_nil_of_length_pos
  rw [List.length_take, List.length_drop]
  omega

/-- Different offsets have different positions. -/
theorem ofOffset_inj {text : List Char} {first second : Nat} (hfirst : first ≤ text.length)
    (hsecond : second ≤ text.length) (h : ofOffset text first = ofOffset text second) :
    first = second := by
  have hirrefl (here : Position) : ¬ here.Precedes here := by
    unfold Precedes
    omega
  rcases Nat.lt_trichotomy first second with hlt | heq | hgt
  · exact absurd (h ▸ ofOffset_precedes hlt hsecond) (hirrefl _)
  · exact heq
  · exact absurd (h ▸ ofOffset_precedes hgt hfirst) (hirrefl _)

end Position

/-! ### Spans -/

namespace Span

/-- A span covers the characters of a text from one offset to another one, both included. -/
structure Covers (file : String) (text : List Char) (span : Span) (first last : Nat) : Prop where
  /-- The span is of the file. -/
  file : span.file = file
  /-- There is at least one character. -/
  ordered : first ≤ last
  /-- All characters are in the text. -/
  inside : last < text.length
  /-- The span starts at the first one. -/
  first : span.first = .ofOffset text first
  /-- The span ends at the last one. -/
  last : span.last = .ofOffset text last

/-- A span covers at most one slice of a text. -/
theorem Covers.unique {file : String} {text : List Char} {span : Span} {first last start stop : Nat}
    (h : Covers file text span first last) (hother : Covers file text span start stop) :
    first = start ∧ last = stop := by
  have hbounds := h.inside
  have hotherBounds := hother.inside
  have hordered := h.ordered
  have hotherOrdered := hother.ordered
  constructor
  · apply Position.ofOffset_inj (by omega) (by omega) (h.first.symm.trans hother.first)
  · apply Position.ofOffset_inj (by omega) (by omega) (h.last.symm.trans hother.last)

/-- Assumes: characters of which the last ends no line. The span from their first to just before the
one behind them covers them. -/
theorem covers_upTo (file : String) (before front behind : List Char) {c : Char} (h : c ≠ '\n') :
    Covers file (before ++ (front ++ [c]) ++ behind)
      (.upTo file (Position.first.afterAll before)
        (Position.first.afterAll (before ++ (front ++ [c]))))
      before.length (before.length + front.length) where
  file := rfl
  ordered := Nat.le_add_right _ _
  inside := by
    simp only [List.length_append, List.length_singleton]
    omega
  first := by
    rw [List.append_assoc, Position.ofOffset_append]
    rfl
  last := by
    have hoffset : before.length + front.length = (before ++ front).length :=
      List.length_append.symm
    have htext : before ++ (front ++ [c]) ++ behind = before ++ front ++ ([c] ++ behind) := by
      simp only [List.append_assoc]
    rw [hoffset, htext, Position.ofOffset_append, upTo, ← List.append_assoc,
      Position.lastBefore_afterAll _ h]

end Span

end WatTypes
