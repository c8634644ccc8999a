import Mathlib.Data.List.TakeWhile
import WatTypes.Highlight.Segment
import WatTypes.Proofs.Lexical.Gap
import WatTypes.Proofs.Lexical.Literal

/-!
# How highlighting cuts a text

From given modes on, highlighting cuts a text in front of another one into segments of a kind, and
comes out in given modes behind it (`Cuts`), whatever stands before. Cuts of texts one behind the
other are put together (`Cuts.append`) from those of single segments (`Cuts.single`). A run of
characters that one rule matches whole is a single segment, so that a text is taken with the run at
its start left out, and the run is put in front afterwards (`Cuts.ofRun`). Highlighting passes
through a block comment as the grammar of comments has it (`cuts_commentInside`), and through the
inside of a string literal as the grammar of literals has it (`cuts_stringInside`).
-/

set_option autoImplicit false
set_option relaxedAutoImplicit false

namespace WatTypes.Highlight

open Lexeme Lexeme.Syntax

/-! ### Matches -/

section Matches

variable {mode : Mode} {before : Option Char} {cs : List Char}

/-- A run does not match where a character of another kind stands first. -/
theorem run_of_not {isMember : Char → Bool} {c : Char} (h : isMember c = false)
    (before : Option Char) (cs : List Char) : run isMember before (c :: cs) = 0 := by
  simp [run, runLength, h]

/-- A run matches up to the first character of another kind. -/
theorem runLength_append {isMember : Char → Bool} {text rest : List Char}
    (h : ∀ c ∈ text, isMember c = true) (hrest : ∀ c ∈ rest.head?, isMember c = false) :
    runLength isMember (text ++ rest) = text.length := by
  rw [runLength, (takeWhile_append_of_head? h hrest).1]

/-- A given text does not match where another character stands first. -/
theorem exactly_of_ne {c d : Char} (h : d ≠ c) (expected : List Char) (before : Option Char)
    (cs : List Char) : exactly (d :: expected) before (c :: cs) = 0 := by
  simp [exactly, h]

/-- A given text matches where it stands. -/
theorem exactly_append (expected : List Char) (before : Option Char) (rest : List Char) :
    exactly expected before (expected ++ rest) = expected.length := by
  simp [exactly]

theorem lineComment_of_ne {c : Char} (h : c ≠ ';') (before : Option Char) (cs : List Char) :
    lineComment before (c :: cs) = 0 := by
  unfold lineComment
  split
  · rename_i hcs
    exact absurd (List.cons.inj hcs).1 h
  · rfl

end Matches

/-! ### Segments -/

/-- A segment behind a match of its whole text. -/
theorem segmentsFrom_of_firstMatch? {modes : Modes} {before : Option Char} {text rest : List Char}
    {rule : Rule} (hne : text ≠ [])
    (hrule : firstMatch? modes.current before (text ++ rest) = some rule)
    (hlength : rule.matcher before (text ++ rest) = text.length) :
    segmentsFrom modes before (text ++ rest) =
      (⟨rule.category, text⟩ :: (segmentsFrom (modes.shifted rule.shift) text.getLast? rest).1,
        (segmentsFrom (modes.shifted rule.shift) text.getLast? rest).2) := by
  obtain ⟨c, cs, rfl⟩ := List.exists_cons_of_ne_nil hne
  rw [List.cons_append] at hrule hlength ⊢
  rw [segmentsFrom, hrule]
  simp only [hlength, List.length_cons, Nat.add_sub_cancel, List.take_left, List.drop_left]

/-- From some modes on, a text in front of another one is cut into segments of a kind, and other
modes are left behind, whatever stands before. -/
def Cuts (good : Segment → Prop) (modes : Modes) (text rest : List Char) (stop : Modes) : Prop :=
  ∀ before, ∃ segments last, (∀ segment ∈ segments, good segment) ∧
    segments.flatMap Segment.text = text ∧
    segmentsFrom modes before (text ++ rest) =
      (segments ++ (segmentsFrom stop last rest).1, (segmentsFrom stop last rest).2)

section Cuts

variable {good : Segment → Prop} {modes middle stop : Modes} {text rest : List Char}

/-- Cuts of texts one behind the other. -/
theorem Cuts.append {second : List Char} (hfirst : Cuts good modes text (second ++ rest) middle)
    (hsecond : Cuts good middle second rest stop) : Cuts good modes (text ++ second) rest stop := by
  intro before
  obtain ⟨segments, last, hgood, htext, hcut⟩ := hfirst before
  obtain ⟨others, final, hothers, hbehind, hend⟩ := hsecond last
  refine ⟨segments ++ others, final, List.forall_mem_append.mpr ⟨hgood, hothers⟩, ?_, ?_⟩
  · rw [List.flatMap_append, htext, hbehind]
  · rw [List.append_assoc, hcut, hend, List.append_assoc]

/-- Assumes: a rule that is the first one to match, and matches a text whole. The text is a single
segment. -/
theorem Cuts.single (hne : text ≠ [])
    (h : ∀ before, ∃ rule, firstMatch? modes.current before (text ++ rest) = some rule ∧
      rule.matcher before (text ++ rest) = text.length ∧ modes.shifted rule.shift = stop ∧
        good ⟨rule.category, text⟩) : Cuts good modes text rest stop := by
  intro before
  obtain ⟨rule, hrule, hlength, rfl, hgood⟩ := h before
  refine ⟨[⟨rule.category, text⟩], text.getLast?, List.forall_mem_singleton.mpr hgood, by simp, ?_⟩
  rw [segmentsFrom_of_firstMatch? hne hrule hlength]
  rfl

theorem Cuts.mono {other : Segment → Prop} (h : Cuts good modes text rest stop)
    (himp : ∀ segment, good segment → other segment) : Cuts other modes text rest stop := by
  intro before
  obtain ⟨segments, last, hgood, hcut⟩ := h before
  exact ⟨segments, last, fun segment hmem ↦ himp segment (hgood segment hmem), hcut⟩

/-- Assumes: a rule that matches runs of characters, and comes first where such a character stands.
A text is cut if it is cut without the run at its start, and this does not go on behind it. -/
theorem Cuts.ofRun {isMember : Char → Bool} {category : Category}
    (hrule : ∀ before c cs, isMember c = true →
      firstMatch? modes.current before (c :: cs) = some ⟨run isMember, category, .stay⟩)
    (hgood : ∀ taken, (∀ c ∈ taken, isMember c = true) → good ⟨category, taken⟩)
    (hhalt : ∀ c ∈ (text.dropWhile isMember ++ rest).head?, isMember c = false)
    (h : Cuts good modes (text.dropWhile isMember) rest stop) : Cuts good modes text rest stop := by
  have hrun : ∀ c ∈ text.takeWhile isMember, isMember c = true :=
    List.all_eq_true.mp List.all_takeWhile
  by_cases hnone : text.takeWhile isMember = []
  · have hwhole := List.takeWhile_append_dropWhile (p := isMember) (l := text)
    rw [hnone, List.nil_append] at hwhole
    rwa [hwhole] at h
  · rw [← List.takeWhile_append_dropWhile (p := isMember) (l := text)]
    refine .append (.single hnone fun before ↦ ?_) h
    obtain ⟨c, cs, hcons⟩ := List.exists_cons_of_ne_nil hnone
    refine ⟨⟨run isMember, category, .stay⟩, ?_, runLength_append hrun hhalt, rfl, hgood _ hrun⟩
    rw [hcons, List.cons_append]
    exact hrule before c _ (hrun c (hcons ▸ List.mem_cons_self))

end Cuts

/-! ### Block comments -/

/-- A piece of a block comment. -/
def Segment.IsBlockComment (segment : Segment) : Prop := segment.category = .blockComment

/-- Whether a character can start no mark of a block comment. -/
def startsNoMark (c : Char) : Bool := c ≠ '(' ∧ c ≠ ';'

section Comments

variable {outer : List Mode} {mode : Mode} {rest : List Char}

/-- The rules of block comments, in order. -/
theorem rules_comment : rules .comment = [⟨run startsNoMark, .blockComment, .stay⟩,
    ⟨exactly ['(', ';'], .blockComment, .enter .comment⟩,
    ⟨exactly [';', ')'], .blockComment, .leave⟩, ⟨exactly ['('], .blockComment, .stay⟩,
    ⟨exactly [';'], .blockComment, .stay⟩] := rfl

/-- A text that starts with no mark is a prefix of nothing that starts so. -/
theorem exactly_of_not_isPrefix {expected cs : List Char} (h : ¬ expected <+: cs)
    (before : Option Char) : exactly expected before cs = 0 := by
  rw [exactly, if_neg]
  rwa [List.isPrefixOf_iff_prefix]

/-- A run in a block comment, and what is behind it. -/
theorem Cuts.commentRun {inside : List Char} {stop : Modes}
    (hne : inside.dropWhile startsNoMark ≠ [])
    (h : Cuts Segment.IsBlockComment ⟨.comment, outer⟩ (inside.dropWhile startsNoMark) rest stop) :
    Cuts Segment.IsBlockComment ⟨.comment, outer⟩ inside rest stop := by
  apply Cuts.ofRun _ (fun _ _ ↦ rfl) _ h
  · intro before c cs hc
    have hrun : run startsNoMark before (c :: cs) ≠ 0 := by simp [run, runLength, hc]
    simp [firstMatch?, rules_comment, hrun]
  · intro c hc
    obtain ⟨d, others, hdrop⟩ := List.exists_cons_of_ne_nil hne
    have hhalt := List.head?_dropWhile_not startsNoMark inside
    rw [hdrop] at hc hhalt
    cases hc
    exact hhalt

/-- A mark opens a block comment in a block comment. -/
theorem cuts_openingMark : Cuts Segment.IsBlockComment ⟨.comment, outer⟩ ['(', ';'] rest
    ⟨.comment, .comment :: outer⟩ := by
  refine .single (by simp) fun before ↦ ?_
  refine ⟨⟨exactly ['(', ';'], .blockComment, .enter .comment⟩, ?_,
    exactly_append ['(', ';'] before rest, rfl, rfl⟩
  simp [firstMatch?, rules_comment, run, runLength, startsNoMark, exactly]

/-- A mark closes a block comment. -/
theorem cuts_closingMark :
    Cuts Segment.IsBlockComment ⟨.comment, mode :: outer⟩ [';', ')'] rest ⟨mode, outer⟩ := by
  refine .single (by simp) fun before ↦ ?_
  refine ⟨⟨exactly [';', ')'], .blockComment, .leave⟩, ?_,
    exactly_append [';', ')'] before rest, rfl, rfl⟩
  simp [firstMatch?, rules_comment, run, runLength, startsNoMark, exactly]

/-- A character of a block comment that could start a mark, and does not. -/
theorem cuts_markChar {c : Char} (hc : startsNoMark c = false)
    (hopening : ¬ ['(', ';'] <+: c :: rest)
    (hclosing : ¬ [';', ')'] <+: c :: rest) :
    Cuts Segment.IsBlockComment ⟨.comment, outer⟩ [c] rest ⟨.comment, outer⟩ := by
  refine .single (by simp) fun before ↦ ?_
  have hrun : run startsNoMark before (c :: rest) = 0 := run_of_not hc before rest
  have hopen := exactly_of_not_isPrefix hopening before
  have hclose := exactly_of_not_isPrefix hclosing before
  have hchar : c = '(' ∨ c = ';' := by
    by_contra hnone
    simp only [not_or] at hnone
    simp [startsNoMark, hnone] at hc
  rcases hchar with rfl | rfl
  · refine ⟨⟨exactly ['('], .blockComment, .stay⟩, ?_, exactly_append ['('] before rest, rfl, rfl⟩
    have hmatch : exactly ['('] before ('(' :: rest) = 1 := exactly_append ['('] before rest
    simp [firstMatch?, rules_comment, hrun, hopen, hclose, hmatch]
  · refine ⟨⟨exactly [';'], .blockComment, .stay⟩, ?_, exactly_append [';'] before rest, rfl, rfl⟩
    have hother := exactly_of_ne (by decide : '(' ≠ ';') [] before rest
    have hmatch : exactly [';'] before (';' :: rest) = 1 := exactly_append [';'] before rest
    simp [firstMatch?, rules_comment, hrun, hopen, hclose, hother, hmatch]

/-- In a block comment there is a mark behind every run. -/
theorem dropWhile_commentInside {inside : List Char} (h : CommentInside inside) :
    inside.dropWhile startsNoMark ≠ [] := by
  induction h with
  | close => decide
  | @char c inside _ _ _ ih =>
    rw [List.dropWhile_cons]
    split
    · exact ih
    · exact List.cons_ne_nil _ _
  | nested _ _ _ _ => exact List.cons_ne_nil _ _

/-- Highlighting goes through the inside of a block comment, and leaves it behind its closing mark.
The induction takes the inside without the run at its start, for that run goes on in one segment
over the characters of which the grammar adds one at a time. -/
theorem cuts_commentInside {inside : List Char} (h : CommentInside inside) :
    Cuts Segment.IsBlockComment ⟨.comment, mode :: outer⟩ inside rest ⟨mode, outer⟩ := by
  apply Cuts.commentRun (dropWhile_commentInside h)
  induction h generalizing mode outer rest with
  | close => exact cuts_closingMark
  | @char c inside hopening hclosing hinside ih =>
    rw [List.dropWhile_cons]
    split
    · exact ih
    · rename_i hc
      have hmark (mark : List Char) (hlength : mark.length = 2)
          (hstarts : mark <+: c :: (inside ++ rest)) : mark <+: c :: inside := by
        have hpositive := List.length_pos_iff.mpr hinside.ne_nil
        apply List.prefix_of_prefix_length_le hstarts (List.prefix_append (c :: inside) rest)
        simp only [hlength, List.length_cons]
        omega
      have hfirst : Cuts Segment.IsBlockComment ⟨.comment, mode :: outer⟩ [c] (inside ++ rest)
          ⟨.comment, mode :: outer⟩ := cuts_markChar (by simpa using hc)
        (fun h ↦ hopening (hmark _ rfl h)) fun h ↦ hclosing (hmark _ rfl h)
      exact hfirst.append (.commentRun (dropWhile_commentInside hinside) ih)
  | @nested inner inside hinner hinside ihinner ihinside =>
    have hnested : ('(' :: ';' :: inner ++ inside).dropWhile startsNoMark =
        ['(', ';'] ++ (inner ++ inside) := rfl
    rw [hnested]
    exact cuts_openingMark.append (.append
      (.commentRun (dropWhile_commentInside hinner) ihinner)
      (.commentRun (dropWhile_commentInside hinside) ihinside))

end Comments

/-! ### Strings -/

/-- A segment that is no error. -/
def Segment.IsValid (segment : Segment) : Prop := segment.category ≠ .error

/-- Whether a character of a string is highlighted with its neighbours. -/
def staysInString (c : Char) : Bool := c ≠ '"' ∧ c ≠ '\\'

section Strings

variable {outer : List Mode} {mode : Mode} {rest inside : List Char} {bytes : List UInt8}

/-- The rules of strings, in order. -/
theorem rules_string : rules .string = [⟨escape, .escape, .stay⟩,
    ⟨run staysInString, .string, .stay⟩, ⟨exactly ['"'], .string, .leave⟩] := rfl

theorem escape_of_ne {c : Char} (h : c ≠ '\\') (before : Option Char) (cs : List Char) :
    escape before (c :: cs) = 0 := by
  unfold escape
  split
  · rename_i hcs
    exact absurd (List.cons.inj hcs).1 h
  · rfl

/-- An escape of the grammar of literals is matched whole. -/
theorem escape_append {taken : List Char} (h : StringPiece ('\\' :: taken) bytes)
    (before : Option Char) (rest : List Char) :
    escape before ('\\' :: taken ++ rest) = taken.length + 1 := by
  cases h with
  | char _ hbackslash _ => exact absurd rfl hbackslash
  | @letter letter meant hletter =>
    have hkind : letter ≠ 'u' ∧ Text.isHexDigit letter = false ∧
        letter ∈ ['n', 'r', 't', '\\', '\'', '"'] := by
      simp only [letterEscapes, List.mem_cons, Prod.mk.injEq, List.not_mem_nil, or_false] at hletter
      rcases hletter with ⟨rfl, -⟩ | ⟨rfl, -⟩ | ⟨rfl, -⟩ | ⟨rfl, -⟩ | ⟨rfl, -⟩ | ⟨rfl, -⟩ <;> decide
    obtain ⟨hu, hdigit, hmem⟩ := hkind
    simp [escape, hu, hdigit, hmem]
  | @byte high low h l hhigh hlow =>
    have hdigit : Text.isHexDigit high = true := by rw [Text.isHexDigit, hhigh, Option.isSome_some]
    have hother : Text.isHexDigit low = true := by rw [Text.isHexDigit, hlow, Option.isSome_some]
    have hu : high ≠ 'u' := ne_of_digit hdigit (by decide)
    simp [escape, hu, hdigit, hother]
  | @codePoint digits c hne hdigits hc =>
    have hbrace : ∀ d ∈ ('}' :: rest).head?, Text.isHexDigit d = false := by
      intro d hd
      cases hd
      decide
    have hlength : runLength Text.isHexDigit (digits ++ '}' :: rest) = digits.length :=
      runLength_append hdigits hbrace
    have hbraced : bracedLength ('{' :: (digits ++ '}' :: rest)) = digits.length + 2 := by
      simp [bracedLength, hlength, hne]
    have htext : '\\' :: ('u' :: '{' :: digits ++ ['}']) ++ rest =
        '\\' :: 'u' :: '{' :: (digits ++ '}' :: rest) := by simp
    change escape before ('\\' :: ('u' :: '{' :: digits ++ ['}']) ++ rest) =
      ('u' :: '{' :: digits ++ ['}']).length + 1
    rw [htext]
    simp [escape, hbraced]

/-- A run in a string, and what is behind it. -/
theorem Cuts.stringRun {text : List Char} {stop : Modes} (hne : text.dropWhile staysInString ≠ [])
    (h : Cuts Segment.IsValid ⟨.string, outer⟩ (text.dropWhile staysInString) rest stop) :
    Cuts Segment.IsValid ⟨.string, outer⟩ text rest stop := by
  apply Cuts.ofRun _ (fun _ _ ↦ _) _ h
  · exact .string
  · intro before c cs hc
    have hrun : run staysInString before (c :: cs) ≠ 0 := by simp [run, runLength, hc]
    have hescape : escape before (c :: cs) = 0 := by
      apply escape_of_ne
      rintro rfl
      exact absurd hc (by decide)
    simp [firstMatch?, rules_string, hrun, hescape]
  · simp [Segment.IsValid]
  · intro c hc
    obtain ⟨d, others, hdrop⟩ := List.exists_cons_of_ne_nil hne
    have hhalt := List.head?_dropWhile_not staysInString text
    rw [hdrop] at hc hhalt
    cases hc
    exact hhalt

/-- A quotation mark closes a string. -/
theorem cuts_closingQuote :
    Cuts Segment.IsValid ⟨.string, mode :: outer⟩ ['"'] rest ⟨mode, outer⟩ := by
  refine .single (by simp) fun before ↦ ?_
  refine ⟨⟨exactly ['"'], .string, .leave⟩, ?_, exactly_append ['"'] before rest, rfl,
    by simp [Segment.IsValid]⟩
  have hescape := escape_of_ne (by decide : '"' ≠ '\\') before rest
  have hmatch : exactly ['"'] before ('"' :: rest) = 1 := exactly_append ['"'] before rest
  have hrun : run staysInString before ('"' :: rest) = 0 := run_of_not (by decide) before rest
  simp [firstMatch?, rules_string, hescape, hrun, hmatch]

/-- An escape of a string. -/
theorem cuts_escape {taken : List Char} (h : StringPiece ('\\' :: taken) bytes) :
    Cuts Segment.IsValid ⟨.string, outer⟩ ('\\' :: taken) rest ⟨.string, outer⟩ := by
  refine .single (by simp) fun before ↦ ?_
  have hlength := escape_append h before rest
  refine ⟨⟨escape, .escape, .stay⟩, List.find?_cons_of_pos ?_, hlength, rfl,
    by simp [Segment.IsValid]⟩
  simp only [hlength, ne_eq, Nat.add_one_ne_zero, not_false_iff, decide_true]

/-- In a string there is a mark behind every run. -/
theorem dropWhile_string (inside : List Char) :
    (inside ++ ['"']).dropWhile staysInString ≠ [] := by
  intro hnil
  have hall := List.dropWhile_eq_nil_iff.mp hnil '"' (by simp)
  exact absurd hall (by decide)

/-- Highlighting goes through the inside of a string, and leaves it behind its closing mark. -/
theorem cuts_stringInside (h : StringInside inside bytes) :
    Cuts Segment.IsValid ⟨.string, mode :: outer⟩ (inside ++ ['"']) rest ⟨mode, outer⟩ := by
  apply Cuts.stringRun (dropWhile_string inside)
  induction h with
  | nil => exact cuts_closingQuote
  | @cons piece inside _ _ hpiece _ ih =>
    have hescaped {taken : List Char} {bytes : List UInt8}
        (hpiece : StringPiece ('\\' :: taken) bytes) :
        Cuts Segment.IsValid ⟨.string, mode :: outer⟩
          (('\\' :: taken ++ inside ++ ['"']).dropWhile staysInString) rest ⟨mode, outer⟩ := by
      have hwhole : ('\\' :: taken ++ inside ++ ['"']).dropWhile staysInString =
          '\\' :: taken ++ (inside ++ ['"']) := by
        rw [List.append_assoc]
        exact List.dropWhile_cons_of_neg (by decide)
      rw [hwhole]
      exact (cuts_escape hpiece).append (.stringRun (dropWhile_string inside) ih)
    cases hpiece with
    | @char c hquote hbackslash _ =>
      have hc : staysInString c = true := by simp [staysInString, hquote, hbackslash]
      have hwhole : ([c] ++ inside ++ ['"']).dropWhile staysInString =
          (inside ++ ['"']).dropWhile staysInString := List.dropWhile_cons_of_pos hc
      rwa [hwhole]
    | letter hletter => exact hescaped (.letter hletter)
    | byte hhigh hlow => exact hescaped (.byte hhigh hlow)
    | codePoint hne hdigits hc => exact hescaped (.codePoint hne hdigits hc)

end Strings

end WatTypes.Highlight
