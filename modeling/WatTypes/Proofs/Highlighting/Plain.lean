import WatTypes.Proofs.Highlighting.Cuts
import WatTypes.Proofs.Lexical.Escapes
import WatTypes.Proofs.Wording

/-!
# Highlighting outside of comments and strings

Outside of comments and strings, a part of a gap is cut into blanks and pieces of comments
(`cuts_blanks`, `cuts_comment`), and what spells a lexeme that the grammar has a use for is cut into
segments that are no errors (`cuts_of_spells`). The rules end their words where the next character
is no word character, and lexemes end where the next one can be part of no identifier; both agree in
front of what can follow a lexeme in a source that is read (`EndsWord`).
-/

set_option autoImplicit false
set_option relaxedAutoImplicit false

namespace WatTypes

open Lexeme Lexeme.Syntax

/-! ### Characters -/

/-- The characters of words are not blank. -/
theorem isBlank_of_isIdChar {c : Char} (h : isIdChar c = true) : Text.isBlank c = false := by
  obtain ⟨hlow, hhigh⟩ := toNat_of_isIdChar h
  rw [Bool.eq_false_iff]
  intro hblank
  obtain ⟨run, hrun, hfirst, hlast⟩ := (Text.CodePoints.contains_iff _ _).mp hblank
  have hruns : ∀ run ∈ Text.blanks.runs, run.2 < 33 ∨ 126 < run.1 := by decide
  rcases hruns run hrun with hbefore | hbehind <;> omega

/-- The characters of gaps are blank. -/
theorem isBlank_of_isGapChar {c : Char} (h : isGapChar c = true) : Text.isBlank c = true := by
  simp only [isGapChar, Bool.or_eq_true, beq_iff_eq] at h
  rcases h with ((rfl | rfl) | rfl) | rfl <;> decide

namespace Highlight

/-- A text does not start with a character of words, by either notion of them. -/
def EndsWord (rest : List Char) : Prop :=
  ∀ c ∈ rest.head?, isIdChar c = false ∧ Text.isWordCharacter c = false

/-! ### Matchers -/

section Matchers

variable {c : Char} {cs word rest : List Char} {choices : List String}

/-- A sigil does not match another character. -/
theorem sigilName_of_ne {sigil : Char} (h : c ≠ sigil) (before : Option Char) (cs : List Char) :
    sigilName sigil before (c :: cs) = 0 := by
  simp [sigilName, h]

/-- A sigil and a name are matched whole. -/
theorem sigilName_append {sigil : Char} {name : List Char} (hne : name ≠ [])
    (hname : ∀ c ∈ name, isIdChar c = true) (hrest : EndsWord rest) (before : Option Char) :
    sigilName sigil before (sigil :: name ++ rest) = name.length + 1 := by
  have hlength : runLength isIdChar (name ++ rest) = name.length :=
    runLength_append hname fun c hc ↦ (hrest c hc).1
  simp [sigilName, hlength, hne]

/-- Whether a text starts with a lower-case letter. -/
def startsLower (text : List Char) : Bool := text.head?.any fun c ↦ 'a' ≤ c ∧ c ≤ 'z'

/-- Words do not match where no lower-case letter stands first. -/
theorem words_of_not_lower (hchoices : ∀ choice ∈ choices, startsLower choice.toList = true)
    (hc : ¬ ('a' ≤ c ∧ c ≤ 'z')) (before : Option Char) (cs : List Char) :
    words choices before (c :: cs) = 0 := by
  have hnone : choices.find? (fun choice ↦ choice.toList.isPrefixOf (c :: cs) &&
      endsWord ((c :: cs).drop choice.toList.length)) = none := by
    refine List.find?_eq_none.mpr fun choice hmem hmatch ↦ hc ?_
    have hlower := hchoices choice hmem
    obtain ⟨hstarts, -⟩ := Bool.and_eq_true_iff.mp hmatch
    cases hchars : choice.toList with
    | nil => rw [hchars] at hlower; cases hlower
    | cons d others =>
      rw [hchars] at hlower hstarts
      obtain ⟨heq, -⟩ := List.cons_prefix_cons.mp (List.isPrefixOf_iff_prefix.mp hstarts)
      simpa [startsLower, heq] using hlower
  rw [words, hnone]

/-- Words match a run of word characters whole, or not at all. -/
theorem words_append (hchoices : ∀ choice ∈ choices, ∀ c ∈ choice.toList,
      Text.isWordCharacter c = true)
    (hword : ∀ c ∈ word, Text.isWordCharacter c = true) (hrest : EndsWord rest)
    (before : Option Char) :
    words choices before (word ++ rest) = 0 ∨
      words choices before (word ++ rest) = word.length := by
  unfold words
  split
  · rename_i choice hfound
    right
    have hmatch := List.find?_some hfound
    obtain ⟨hstarts, hend⟩ := Bool.and_eq_true_iff.mp hmatch
    obtain ⟨behind, hwhole⟩ := List.isPrefixOf_iff_prefix.mp hstarts
    rw [← hwhole, List.drop_left] at hend
    rcases List.append_eq_append_iff.mp hwhole with ⟨more, hmore, hbehind⟩ | ⟨more, hmore, hbehind⟩
    · cases more with
      | nil => rw [hmore, List.append_nil]
      | cons c others =>
        have hc := hword c (by simp [hmore])
        rw [hbehind] at hend
        simp [endsWord, hc] at hend
    · cases more with
      | nil => rw [hmore, List.append_nil]
      | cons c others =>
        have hc := hchoices choice (List.mem_of_find?_eq_some hfound) c (by simp [hmore])
        have hother := (hrest c (by simp [hbehind])).2
        rw [hc] at hother
        cases hother
  · exact .inl rfl

/-- The rules of numbers do not match where no sign and no digit stands first. -/
theorem number_of_not_digit (hplus : c ≠ '+') (hminus : c ≠ '-') (hdigit : c.isDigit = false)
    (before : Option Char) (cs : List Char) :
    hexNumber before (c :: cs) = 0 ∧ floatNumber before (c :: cs) = 0 ∧
      decimalInteger before (c :: cs) = 0 := by
  have hsign : signLength (c :: cs) = 0 := by
    unfold signLength
    split
    · rename_i heq
      exact absurd (List.cons.inj heq).1 hplus
    · rename_i heq
      exact absurd (List.cons.inj heq).1 hminus
    · rfl
  have hinteger : decimalInteger before (c :: cs) = 0 := by
    simp [decimalInteger, hsign, digitsLength, hdigit]
  refine ⟨?_, ?_, hinteger⟩
  · unfold hexNumber
    simp only [hsign, List.drop_zero]
    split
    · rename_i heq
      obtain ⟨rfl, -⟩ := List.cons.inj heq
      cases hdigit
    · rfl
  · unfold floatNumber
    simp only [hinteger]
    split
    · exact if_pos trivial
    · rfl

/-! ### Numbers -/

open Number

/-- A literal is the one without its sign, and what is as long as its sign in front. -/
theorem exists_sign (word : List Char) :
    ∃ sign, word = sign ++ withoutSign word ∧ sign.length = signLength word := by
  cases word with
  | nil => exact ⟨[], rfl, rfl⟩
  | cons c rest =>
    by_cases hplus : c = '+'
    · subst hplus
      exact ⟨['+'], rfl, rfl⟩
    by_cases hminus : c = '-'
    · subst hminus
      exact ⟨['-'], rfl, rfl⟩
    exact ⟨[], by simp [withoutSign, hplus, hminus], by simp [signLength, hplus, hminus]⟩

/-- Behind the sign of a literal stands the literal without it. -/
theorem drop_signLength (word rest : List Char) :
    (word ++ rest).drop (signLength word) = withoutSign word ++ rest := by
  obtain ⟨sign, hword, hlength⟩ := exists_sign word
  rw [← hlength]
  conv_lhs => rw [hword, List.append_assoc]
  rw [List.drop_left]

/-- The sign of a literal is at its start. -/
theorem signLength_append (hne : word ≠ []) (rest : List Char) :
    signLength (word ++ rest) = signLength word := by
  obtain ⟨c, cs, rfl⟩ := List.exists_cons_of_ne_nil hne
  unfold signLength
  split <;> split <;> simp_all

/-- Digits are a digit, and digits and low lines behind it. -/
theorem exists_cons_of_isDigits {isDigit : Char → Bool} {digits : List Char}
    (h : isDigits isDigit digits = true) :
    ∃ d others, digits = d :: others ∧ isDigit d = true ∧
      ∀ c ∈ others, (isDigit c || c == '_') = true := by
  fun_induction isDigits isDigit digits with
  | case1 => cases h
  | case2 c => exact ⟨c, [], rfl, h, fun _ hmem ↦ (List.not_mem_nil hmem).elim⟩
  | case3 c rest ih =>
    obtain ⟨hc, hrest⟩ := Bool.and_eq_true_iff.mp h
    obtain ⟨d, others, rfl, hd, hothers⟩ := ih hrest
    refine ⟨c, _, rfl, hc, ?_⟩
    simp only [List.forall_mem_cons]
    exact ⟨by simp, by simp [hd], hothers⟩
  | case4 c rest _ _ ih =>
    obtain ⟨hc, hrest⟩ := Bool.and_eq_true_iff.mp h
    obtain ⟨d, others, rfl, hd, hothers⟩ := ih hrest
    refine ⟨c, _, rfl, hc, ?_⟩
    simp only [List.forall_mem_cons]
    exact ⟨by simp [hd], hothers⟩

/-- Digits are matched whole. -/
theorem digitsLength_append {isDigit : Char → Bool} {digits : List Char}
    (h : isDigits isDigit digits = true)
    (hrest : ∀ c ∈ rest.head?, (isDigit c || c == '_') = false) :
    digitsLength isDigit (digits ++ rest) = digits.length := by
  obtain ⟨d, others, rfl, hd, hothers⟩ := exists_cons_of_isDigits h
  have hlength := runLength_append hothers hrest
  simp [digitsLength, hd, hlength]

/-- No digit and no low line continues a word that ends. -/
theorem EndsWord.not_isDigit (h : EndsWord rest) {isDigit : Char → Bool}
    (hdigit : ∀ c, isDigit c = true → isIdChar c = true) :
    ∀ c ∈ rest.head?, (isDigit c || c == '_') = false := by
  intro c hc
  have hother := (h c hc).1
  rw [Bool.eq_false_iff]
  intro hmem
  rcases Bool.or_eq_true_iff.mp hmem with hmem | hlow
  · rw [hdigit c hmem] at hother
    cases hother
  · rw [beq_iff_eq.mp hlow] at hother
    revert hother
    decide

/-- No character of words stands first behind a word that ends. -/
theorem EndsWord.ne_cons (h : EndsWord rest) (hc : isIdChar c = true) (behind : List Char) :
    rest ≠ c :: behind := by
  rintro rfl
  rw [(h c rfl).1] at hc
  cases hc

/-- A literal is as long as its sign and what is left without it. -/
theorem signLength_add_length (word : List Char) :
    signLength word + (withoutSign word).length = word.length := by
  obtain ⟨sign, hword, hsign⟩ := exists_sign word
  rw [← hsign, ← List.length_append, ← hword]

/-- A literal in base sixteen is matched whole. -/
theorem hexNumber_append {digits : List Char} (hword : withoutSign word = '0' :: 'x' :: digits)
    (h : isDigits Text.isHexDigit digits = true) (hrest : EndsWord rest) (before : Option Char) :
    hexNumber before (word ++ rest) = word.length := by
  have hne : word ≠ [] := by
    rintro rfl
    cases hword
  have hdigits := digitsLength_append h
    (hrest.not_isDigit fun c hc ↦ (isNumberChar_of_isHexDigit hc).1)
  have hpositive : digits.length ≠ 0 := by
    obtain ⟨d, others, rfl, -⟩ := exists_cons_of_isDigits h
    exact Nat.succ_ne_zero _
  have hlength := signLength_add_length word
  rw [hword, List.length_cons, List.length_cons] at hlength
  simp only [hexNumber, signLength_append hne, drop_signLength, hword, List.cons_append, hdigits,
    if_neg hpositive]
  omega

section Decimal

variable (h : isDigits Char.isDigit (withoutSign word) = true)
include h

theorem ne_nil_of_decimal : word ≠ [] := by
  rintro rfl
  cases h

/-- A decimal literal is matched whole. -/
theorem decimalInteger_append (hrest : EndsWord rest) (before : Option Char) :
    decimalInteger before (word ++ rest) = word.length := by
  have hdigits := digitsLength_append h
    (hrest.not_isDigit fun c hc ↦ (isNumberChar_of_isDigit hc).1)
  have hpositive : (withoutSign word).length ≠ 0 := by
    obtain ⟨d, others, hcons, -⟩ := exists_cons_of_isDigits h
    rw [hcons]
    exact Nat.succ_ne_zero _
  simp only [decimalInteger, signLength_append (ne_nil_of_decimal h), drop_signLength, hdigits,
    if_neg hpositive, signLength_add_length]

/-- A decimal literal that does not start with the marker of base sixteen is not matched as one. -/
theorem hexNumber_append_decimal (hhex : ∀ digits, withoutSign word ≠ '0' :: 'x' :: digits)
    (hrest : EndsWord rest) (before : Option Char) : hexNumber before (word ++ rest) = 0 := by
  unfold hexNumber
  simp only [signLength_append (ne_nil_of_decimal h), drop_signLength]
  split
  · rename_i behind hmarker
    obtain ⟨d, others, hcons, -⟩ := exists_cons_of_isDigits h
    rw [hcons, List.cons_append, List.cons.injEq] at hmarker
    cases others with
    | nil => exact absurd hmarker.2 (hrest.ne_cons (by decide) behind)
    | cons e others =>
      obtain ⟨rfl, hbehind⟩ := hmarker
      rw [List.cons_append, List.cons.injEq] at hbehind
      rw [hbehind.1] at hcons
      exact absurd hcons (hhex others)
  · rfl

/-- A decimal literal is not matched as one with a fraction. -/
theorem floatNumber_append_decimal (hrest : EndsWord rest) (before : Option Char) :
    floatNumber before (word ++ rest) = 0 := by
  unfold floatNumber
  simp only [decimalInteger_append h hrest before, List.drop_left]
  split
  · exact absurd rfl (hrest.ne_cons (by decide) _)
  · rfl

end Decimal

/-- The literal of an integer is matched whole by the rule of its base, and a decimal one by no rule
of numbers before that. -/
theorem number_append (h : isInteger word = true) (hrest : EndsWord rest) (before : Option Char) :
    hexNumber before (word ++ rest) = word.length ∨
      hexNumber before (word ++ rest) = 0 ∧ floatNumber before (word ++ rest) = 0 ∧
        decimalInteger before (word ++ rest) = word.length := by
  unfold isInteger at h
  split at h
  · rename_i digits hword
    exact .inl (hexNumber_append hword h hrest before)
  · rename_i hhex
    exact .inr ⟨hexNumber_append_decimal h hhex hrest before,
      floatNumber_append_decimal h hrest before, decimalInteger_append h hrest before⟩

/-- An integer starts with a sign or a decimal digit. -/
theorem head_of_isInteger (h : isInteger (c :: cs) = true) :
    c = '+' ∨ c = '-' ∨ c.isDigit = true := by
  by_cases hplus : c = '+'
  · exact .inl hplus
  by_cases hminus : c = '-'
  · exact .inr (.inl hminus)
  have hsign : withoutSign (c :: cs) = c :: cs := by
    unfold withoutSign
    split
    · rename_i heq
      exact absurd (List.cons.inj heq).1 hplus
    · rename_i heq
      exact absurd (List.cons.inj heq).1 hminus
    · rfl
  rw [isInteger, hsign] at h
  refine .inr (.inr ?_)
  split at h
  · rename_i heq
    rw [(List.cons.inj heq).1]
    decide
  · obtain ⟨d, others, heq, hd, -⟩ := exists_cons_of_isDigits h
    rwa [(List.cons.inj heq).1]

end Matchers

/-! ### Lexemes -/

section Lexemes

variable {c : Char} {cs word rest name : List Char}

/-- Assumes: some rule that matches stays outside of comments and strings, and matches a text whole.
If it comes first, the text is a single segment. -/
theorem cuts_of_firstMatch? {text : List Char} (hne : text ≠ [])
    (h : ∀ before, ∃ rule, firstMatch? .plain before (text ++ rest) = some rule ∧
      rule.matcher before (text ++ rest) = text.length ∧ rule.shift = .stay ∧
        rule.category ≠ .error) : Cuts Segment.IsValid .start text rest .start := by
  refine .single hne fun before ↦ ?_
  obtain ⟨rule, hrule, hlength, hshift, hcategory⟩ := h before
  exact ⟨rule, hrule, hlength, by rw [hshift]; rfl, hcategory⟩

/-- Assumes: some rule matches, and whichever matches is good. The first one is. -/
theorem exists_firstMatch? {mode : Mode} {before : Option Char} {text : List Char}
    {good : Rule → Prop} (hsome : ∃ rule ∈ rules mode, rule.matcher before text ≠ 0)
    (hall : ∀ rule ∈ rules mode, rule.matcher before text ≠ 0 → good rule) :
    ∃ rule, firstMatch? mode before text = some rule ∧ good rule := by
  cases hfound : firstMatch? mode before text with
  | none =>
    obtain ⟨rule, hmem, hmatch⟩ := hsome
    exact absurd (by simpa using hmatch) (List.find?_eq_none.mp hfound rule hmem)
  | some rule =>
    have hmatch := List.find?_some hfound
    exact ⟨rule, rfl, hall rule (List.mem_of_find?_eq_some hfound) (of_decide_eq_true hmatch)⟩

/-- A lower-case letter is no digit. -/
theorem isDigit_of_lower (h : 'a' ≤ c ∧ c ≤ 'z') : c.isDigit = false := by
  rw [Bool.eq_false_iff]
  intro hdigit
  have hhigh : 97 ≤ c.toNat := h.1
  simp only [Char.isDigit, Bool.and_eq_true, decide_eq_true_eq, UInt32.le_iff_toNat_le,
    ge_iff_le] at hdigit
  have hlow : c.toNat ≤ 57 := hdigit.2
  omega

/-- Where a character of words stands first, neither blanks nor comments nor strings do. -/
theorem matchers_of_isIdChar (hc : isIdChar c = true) (before : Option Char) (cs : List Char) :
    run Text.isBlank before (c :: cs) = 0 ∧ lineComment before (c :: cs) = 0 ∧
      exactly ['(', ';'] before (c :: cs) = 0 ∧ exactly ['"'] before (c :: cs) = 0 := by
  obtain ⟨-, hsemicolon, hopening, -, hquote⟩ := ne_of_isIdChar hc
  exact ⟨run_of_not (isBlank_of_isIdChar hc) before cs, lineComment_of_ne hsemicolon before cs,
    exactly_of_ne hopening.symm _ before cs, exactly_of_ne hquote.symm _ before cs⟩

/-- The rules of words do not match where no lower-case letter stands first. -/
theorem words_of_rules (hc : ¬ ('a' ≤ c ∧ c ≤ 'z')) (before : Option Char) (cs : List Char) :
    words declarationWords before (c :: cs) = 0 ∧ words typeWords before (c :: cs) = 0 ∧
      words typeNames before (c :: cs) = 0 :=
  ⟨words_of_not_lower (by decide) hc before cs, words_of_not_lower (by decide) hc before cs,
    words_of_not_lower (by decide) hc before cs⟩

/-- An identifier. -/
theorem cuts_id (hne : name ≠ []) (hname : ∀ c ∈ name, isIdChar c = true) (hrest : EndsWord rest) :
    Cuts Segment.IsValid .start ('$' :: name) rest .start := by
  refine cuts_of_firstMatch? (List.cons_ne_nil _ _) fun before ↦ ?_
  have hlength : sigilName '$' before ('$' :: name ++ rest) = name.length + 1 :=
    sigilName_append hne hname hrest before
  rw [List.cons_append] at hlength ⊢
  obtain ⟨hblank, hline, hblock, hquote⟩ :=
    matchers_of_isIdChar (by decide : isIdChar '$' = true) before (name ++ rest)
  refine ⟨⟨sigilName '$', .variable, .stay⟩, ?_, hlength, rfl, by simp⟩
  simp [firstMatch?, rules, hblank, hline, hblock, hquote, hlength]

/-- The head of an annotation. -/
theorem cuts_annotationHead (hne : name ≠ []) (hname : ∀ c ∈ name, isIdChar c = true)
    (hrest : EndsWord rest) : Cuts Segment.IsValid .start ('@' :: name) rest .start := by
  refine cuts_of_firstMatch? (List.cons_ne_nil _ _) fun before ↦ ?_
  have hlength : sigilName '@' before ('@' :: name ++ rest) = name.length + 1 :=
    sigilName_append hne hname hrest before
  rw [List.cons_append] at hlength ⊢
  obtain ⟨hblank, hline, hblock, hquote⟩ :=
    matchers_of_isIdChar (by decide : isIdChar '@' = true) before (name ++ rest)
  have hother := sigilName_of_ne (by decide : '@' ≠ '$') before (name ++ rest)
  refine ⟨⟨sigilName '@', .decorator, .stay⟩, ?_, hlength, rfl, by simp⟩
  simp [firstMatch?, rules, hblank, hline, hblock, hquote, hother, hlength]

/-- An integer. -/
theorem cuts_integer (h : Number.isInteger word = true) (hword : ∀ c ∈ word, isIdChar c = true)
    (hrest : EndsWord rest) : Cuts Segment.IsValid .start word rest .start := by
  have hne : word ≠ [] := by
    rintro rfl
    cases h
  refine cuts_of_firstMatch? hne fun before ↦ ?_
  have hnumber := number_append h hrest before
  obtain ⟨c, cs, rfl⟩ := List.exists_cons_of_ne_nil hne
  have hlength : (c :: cs).length ≠ 0 := Nat.succ_ne_zero _
  rw [List.cons_append] at hnumber ⊢
  have hc := hword c List.mem_cons_self
  obtain ⟨hblank, hline, hblock, hquote⟩ := matchers_of_isIdChar hc before (cs ++ rest)
  have hkind : c ≠ '$' ∧ c ≠ '@' ∧ ¬ ('a' ≤ c ∧ c ≤ 'z') := by
    rcases head_of_isInteger h with rfl | rfl | hdigit
    · decide
    · decide
    · obtain ⟨-, hdollar, hat⟩ := isNumberChar_of_isDigit hdigit
      refine ⟨hdollar, hat, fun hlower ↦ ?_⟩
      rw [isDigit_of_lower hlower] at hdigit
      cases hdigit
  obtain ⟨hdollar, hat, hlower⟩ := hkind
  have hid := sigilName_of_ne hdollar before (cs ++ rest)
  have hhead := sigilName_of_ne hat before (cs ++ rest)
  obtain ⟨hdeclaration, htype, hname⟩ := words_of_rules hlower before (cs ++ rest)
  rcases hnumber with hhex | ⟨hhex, hfloat, hdecimal⟩
  · refine ⟨⟨hexNumber, .hexNumber, .stay⟩, ?_, hhex, rfl, by simp⟩
    simp [firstMatch?, rules, hblank, hline, hblock, hquote, hid, hhead, behindOpening,
      hdeclaration, htype, hname, hhex]
  · refine ⟨⟨decimalInteger, .integer, .stay⟩, ?_, hdecimal, rfl, by simp⟩
    simp [firstMatch?, rules, hblank, hline, hblock, hquote, hid, hhead, behindOpening,
      hdeclaration, htype, hname, hhex, hfloat, hdecimal]

/-- The words of the rules, and those that the grammar reserves, are made up of word characters. -/
theorem isWordCharacter_of_mem {choice : String}
    (h : choice ∈ declarationWords ++ typeWords ++ typeNames ++ reservedWords) :
    ∀ c ∈ choice.toList, Text.isWordCharacter c = true := by
  have hall : ∀ word ∈ declarationWords ++ typeWords ++ typeNames ++ reservedWords,
      word.toList.all Text.isWordCharacter = true := by decide
  exact List.all_eq_true.mp (hall choice h)

/-- Where a lower-case letter stands first, neither names nor numbers nor parentheses do. -/
theorem matchers_of_lower (h : 'a' ≤ c ∧ c ≤ 'z') (before : Option Char) (cs : List Char) :
    (sigilName '$' before (c :: cs) = 0 ∧ sigilName '@' before (c :: cs) = 0) ∧
      (hexNumber before (c :: cs) = 0 ∧ floatNumber before (c :: cs) = 0 ∧
        decimalInteger before (c :: cs) = 0) ∧
      exactly ['('] before (c :: cs) = 0 ∧ exactly [')'] before (c :: cs) = 0 := by
  have hne (d : Char) (hd : ¬ ('a' ≤ d ∧ d ≤ 'z')) : c ≠ d := by
    rintro rfl
    exact hd h
  refine ⟨⟨sigilName_of_ne (hne '$' (by decide)) before cs,
    sigilName_of_ne (hne '@' (by decide)) before cs⟩, ?_,
    exactly_of_ne (hne '(' (by decide)).symm [] before cs,
    exactly_of_ne (hne ')' (by decide)).symm [] before cs⟩
  exact number_of_not_digit (hne '+' (by decide)) (hne '-' (by decide)) (isDigit_of_lower h)
    before cs

/-- A word that starts with a lower-case letter is matched whole. -/
theorem lowerWord_append (h : 'a' ≤ c ∧ c ≤ 'z') (hword : ∀ d ∈ c :: cs, isIdChar d = true)
    (hrest : EndsWord rest) (before : Option Char) :
    lowerWord before (c :: (cs ++ rest)) = (c :: cs).length := by
  have hlength := runLength_append (fun d hd ↦ hword d (List.mem_cons_of_mem c hd))
    fun d hd ↦ (hrest d hd).1
  simp only [lowerWord, if_pos h, hlength, List.length_cons]

/-- A reserved word. Several rules may match it, and each of them matches it whole. -/
theorem cuts_keyword {keyword : String} (h : keyword ∈ reservedWords)
    (hlower : startsLower keyword.toList = true) (hword : ∀ c ∈ keyword.toList, isIdChar c = true)
    (hrest : EndsWord rest) : Cuts Segment.IsValid .start keyword.toList rest .start := by
  have hwhole (choices : List String) (hmem : ∀ choice ∈ choices,
      choice ∈ declarationWords ++ typeWords ++ typeNames) (before : Option Char) :
      words choices before (keyword.toList ++ rest) = 0 ∨
        words choices before (keyword.toList ++ rest) = keyword.toList.length :=
    words_append (fun choice h ↦ isWordCharacter_of_mem (List.mem_append_left _ (hmem choice h)))
      (isWordCharacter_of_mem (List.mem_append_right _ h)) hrest before
  have hdeclaration := hwhole declarationWords
    fun choice h ↦ List.mem_append_left _ (List.mem_append_left _ h)
  have htype := hwhole typeWords fun choice h ↦ List.mem_append_left _ (List.mem_append_right _ h)
  have hname := hwhole typeNames fun choice h ↦ List.mem_append_right _ h
  generalize keyword.toList = word at *
  cases word with
  | nil => cases hlower
  | cons c cs =>
    refine cuts_of_firstMatch? (List.cons_ne_nil _ _) fun before ↦ ?_
    have hletter : 'a' ≤ c ∧ c ≤ 'z' := by simpa [startsLower] using hlower
    obtain ⟨hblank, hline, hblock, hquote⟩ :=
      matchers_of_isIdChar (hword c List.mem_cons_self) before (cs ++ rest)
    obtain ⟨⟨hid, hhead⟩, ⟨hhex, hfloat, hdecimal⟩, hopening, hclosing⟩ :=
      matchers_of_lower hletter before (cs ++ rest)
    have hany := lowerWord_append hletter hword hrest before
    have hbehind : behindOpening (words declarationWords) before (c :: cs ++ rest) = 0 ∨
        behindOpening (words declarationWords) before (c :: cs ++ rest) = (c :: cs).length := by
      unfold behindOpening
      split
      · exact hdeclaration before
      · exact .inl rfl
    apply exists_firstMatch?
    · exact ⟨⟨lowerWord, .name, .stay⟩, by simp [rules], by simp [hany]⟩
    · have hzero {length : Nat} {goal : Prop} (h : length = 0) (hmatch : length ≠ 0) : goal :=
        absurd h hmatch
      simp only [rules, List.forall_mem_cons, List.cons_append]
      exact ⟨hzero hblank, hzero hline, hzero hblock, hzero hquote, hzero hid, hzero hhead,
        fun h ↦ ⟨hbehind.resolve_left h, trivial, by simp⟩,
        fun h ↦ ⟨(htype before).resolve_left h, trivial, by simp⟩,
        fun h ↦ ⟨(hname before).resolve_left h, trivial, by simp⟩,
        hzero hhex, hzero hfloat, hzero hdecimal, hzero hopening, hzero hclosing,
        fun _ ↦ ⟨hany, trivial, by simp⟩, fun _ h ↦ (List.not_mem_nil h).elim⟩

/-- A parenthesis that starts no comment. -/
theorem cuts_parenthesis (hc : c = '(' ∨ c = ')') (hrest : ¬ ['(', ';'] <+: c :: rest) :
    Cuts Segment.IsValid .start [c] rest .start := by
  refine cuts_of_firstMatch? (List.cons_ne_nil _ _) fun before ↦ ?_
  have hkind : Text.isBlank c = false ∧ c ≠ ';' ∧ '"' ≠ c ∧ c ≠ '$' ∧ c ≠ '@' ∧
      ¬ ('a' ≤ c ∧ c ≤ 'z') ∧ c ≠ '+' ∧ c ≠ '-' ∧ c.isDigit = false := by
    rcases hc with rfl | rfl <;> decide
  obtain ⟨hblank, hsemicolon, hquote, hdollar, hat, hlower, hplus, hminus, hdigit⟩ := hkind
  have hblank := run_of_not hblank before rest
  have hline := lineComment_of_ne hsemicolon before rest
  have hblock := exactly_of_not_isPrefix hrest before
  have hquote := exactly_of_ne hquote [] before rest
  have hid := sigilName_of_ne hdollar before rest
  have hhead := sigilName_of_ne hat before rest
  obtain ⟨hdeclaration, htype, hname⟩ := words_of_rules hlower before rest
  obtain ⟨hhex, hfloat, hdecimal⟩ := number_of_not_digit hplus hminus hdigit before rest
  have hmatch (d : Char) : exactly [d] before (d :: rest) = 1 := exactly_append [d] before rest
  rcases hc with rfl | rfl
  · refine ⟨⟨exactly ['('], .punctuation, .stay⟩, ?_, hmatch '(', rfl, by simp⟩
    simp [firstMatch?, rules, hblank, hline, hblock, hquote, hid, hhead, behindOpening,
      hdeclaration, htype, hname, hhex, hfloat, hdecimal, hmatch]
  · have hopening := exactly_of_ne (by decide : '(' ≠ ')') [] before rest
    refine ⟨⟨exactly [')'], .punctuation, .stay⟩, ?_, hmatch ')', rfl, by simp⟩
    simp [firstMatch?, rules, hblank, hline, hblock, hquote, hid, hhead, behindOpening,
      hdeclaration, htype, hname, hhex, hfloat, hdecimal, hopening, hmatch]

/-- A quotation mark opens a string. -/
theorem cuts_openingQuote :
    Cuts Segment.IsValid .start ['"'] rest ⟨.string, [.plain]⟩ := by
  refine .single (List.cons_ne_nil _ _) fun before ↦ ?_
  have hblank := run_of_not (by decide : Text.isBlank '"' = false) before rest
  have hline := lineComment_of_ne (by decide : '"' ≠ ';') before rest
  have hblock := exactly_of_ne (by decide : '(' ≠ '"') [';'] before rest
  have hmatch : exactly ['"'] before ('"' :: rest) = 1 := exactly_append ['"'] before rest
  refine ⟨⟨exactly ['"'], .string, .enter .string⟩, ?_, hmatch, rfl, by simp [Segment.IsValid]⟩
  simp [firstMatch?, rules, Modes.start, hblank, hline, hblock, hmatch]

/-- Assumes: a lexeme that the grammar has a use for is spelled, in front of what it can stand
before and what ends words; if it is a string, its code points are plain digits. It is cut into
segments that are no errors. -/
theorem cuts_of_spells {slice : List Char} {lexeme : Lexeme} (h : Spells slice lexeme)
    (hvocabulary : lexeme.InVocabulary) (hrest : MayPrecede lexeme rest)
    (hends : ∀ c ∈ rest.head?, isIdChar c = false → Text.isWordCharacter c = false)
    (hdigits : ∀ text, lexeme = .string text → ∀ digits ∈ codePointTexts slice, ∀ c ∈ digits,
      Text.isHexDigit c = true) : Cuts Segment.IsValid .start slice rest .start := by
  cases h with
  | opening =>
    refine cuts_parenthesis (.inl rfl) ?_
    rintro ⟨behind, hbehind⟩
    cases hbehind
    exact hrest rfl
  | closing =>
    refine cuts_parenthesis (.inr rfl) ?_
    rintro ⟨behind, hbehind⟩
    cases hbehind
  | @word c cs _ hword hlexeme =>
    obtain ⟨hplain, hstring⟩ := kind_of_ofWord hlexeme
    have hnone := not_isIdChar_of_mayPrecede hrest hplain hstring
    have hend : EndsWord rest := fun d hd ↦ ⟨hnone d hd, hends d hd (hnone d hd)⟩
    rcases ofWord_cases hlexeme with ⟨name, heq, hne, rfl⟩ | ⟨name, heq, hne, rfl⟩ |
      ⟨hinteger, rfl⟩ | ⟨-, rfl⟩ | ⟨d, others, heq, hletter, rfl⟩
    · rw [heq] at hword ⊢
      exact cuts_id hne (List.forall_mem_cons.mp hword).2 hend
    · rw [heq] at hword ⊢
      exact cuts_annotationHead hne (List.forall_mem_cons.mp hword).2 hend
    · exact cuts_integer hinteger hword hend
    · exact hvocabulary.elim
    · rw [← String.toList_ofList (l := c :: cs)] at hword ⊢
      refine cuts_keyword hvocabulary ?_ hword hend
      rw [String.toList_ofList, heq]
      simpa [startsLower] using hletter
  | @string body text hbody =>
    have hinside := hdigits text rfl
    rw [List.cons_append, codePointTexts_of_ne (by decide)] at hinside
    obtain ⟨bytes, hpieces⟩ := stringInside_of_isLiteralBody hbody hinside
    exact cuts_openingQuote.append (cuts_stringInside hpieces)

end Lexemes

/-! ### Gaps -/

/-- A segment of blanks, or a piece of a comment. -/
def Segment.IsGap (segment : Segment) : Prop :=
  segment.category = .text ∧ (∀ c ∈ segment.text, isGapChar c = true) ∨
    segment.category = .lineComment ∨ segment.category = .blockComment

theorem Segment.IsGap.isValid {segment : Segment} (h : segment.IsGap) : segment.IsValid := by
  rcases h with ⟨h, -⟩ | h | h <;> simp [IsValid, h]

section Gaps

variable {rest : List Char}

/-- A run of blanks is a single segment. -/
theorem cuts_blanks {blanks : List Char} (hne : blanks ≠ [])
    (h : ∀ c ∈ blanks, isGapChar c = true) (hrest : ∀ c ∈ rest.head?, Text.isBlank c = false) :
    Cuts Segment.IsGap .start blanks rest .start := by
  refine .single hne fun before ↦ ?_
  have hlength := runLength_append (fun c hc ↦ isBlank_of_isGapChar (h c hc)) hrest
  have hpositive : blanks.length ≠ 0 := fun hnil ↦ hne (List.length_eq_zero_iff.mp hnil)
  refine ⟨⟨run Text.isBlank, .text, .stay⟩, ?_, hlength, rfl, .inl ⟨rfl, h⟩⟩
  simp [firstMatch?, rules, Modes.start, run, hlength, hpositive]

/-- A comment is cut into pieces of comments. -/
theorem cuts_comment {part : List Char} (h : GapPart rest part)
    (hblank : ∀ c ∈ (part ++ rest).head?, Text.isBlank c = false) :
    Cuts Segment.IsGap .start part rest .start := by
  cases h with
  | @blank c hc =>
    have hother := isBlank_of_isGapChar hc
    rw [hblank c rfl] at hother
    cases hother
  | @lineComment comment hcomment hend =>
    refine .single (List.cons_ne_nil _ _) fun before ↦ ?_
    have hinside : ∀ c ∈ comment, decide (c ≠ '\n') = true :=
      fun c hc ↦ decide_eq_true fun hfeed ↦ hcomment (hfeed ▸ hc)
    have hhalt : ∀ c ∈ rest.head?, decide (c ≠ '\n') = false := by
      intro c hc
      rcases hend with rfl | hfeed
      · cases hc
      · rw [hfeed] at hc
        cases hc
        decide
    have hlength : lineComment before (';' :: ';' :: comment ++ rest) = comment.length + 2 :=
      congrArg (· + 2) (runLength_append hinside hhalt)
    have hnone := run_of_not (by decide : Text.isBlank ';' = false) before
      (';' :: (comment ++ rest))
    refine ⟨⟨lineComment, .lineComment, .stay⟩, ?_, hlength, rfl, .inr (.inl rfl)⟩
    simp only [List.cons_append] at hlength
    simp [firstMatch?, rules, Modes.start, hnone, hlength]
  | @blockComment inside hinside =>
    have hopening : Cuts Segment.IsBlockComment .start ['(', ';'] (inside ++ rest)
        ⟨.comment, [.plain]⟩ := by
      refine .single (List.cons_ne_nil _ _) fun before ↦ ?_
      have hnone := run_of_not (by decide : Text.isBlank '(' = false) before
        (';' :: (inside ++ rest))
      have hline := lineComment_of_ne (by decide : '(' ≠ ';') before (';' :: (inside ++ rest))
      have hmatch : exactly ['(', ';'] before ('(' :: ';' :: (inside ++ rest)) = 2 :=
        exactly_append ['(', ';'] before (inside ++ rest)
      refine ⟨⟨exactly ['(', ';'], .blockComment, .enter .comment⟩, ?_, hmatch, rfl, rfl⟩
      simp [firstMatch?, rules, Modes.start, hnone, hline, hmatch]
    exact (hopening.append (cuts_commentInside hinside)).mono fun _ h ↦ .inr (.inr h)

end Gaps

end Highlight

end WatTypes
