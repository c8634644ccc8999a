import WatTypes.Proofs.Lexical.Syntax

/-!
# Number literals are regular languages

The tests by which a word is told to be an integer or another number accept exactly the words of the
languages of these literals (`isInteger_iff`, `isFloat_iff`). Both tests cut a word at its first
point and at its first exponent mark, and this is right because no such mark can stand earlier
(`mem_mul_maybe_iff`).
-/

set_option autoImplicit false
set_option relaxedAutoImplicit false

namespace WatTypes.Lexeme.Syntax

open Number
open scoped Computability

/-! ### Characters of languages -/

/-- All characters of all words of a language are allowed. -/
def IsOver (allowed : Char → Prop) (language : Language Char) : Prop :=
  ∀ word ∈ language, ∀ c ∈ word, allowed c

section IsOver

variable {allowed : Char → Prop} {first second : Language Char}

theorem isOver_oneOf {test : Char → Bool} (h : ∀ c, test c = true → allowed c) :
    IsOver allowed (oneOf test) := by
  rintro _ ⟨c, htest, rfl⟩ d hd
  rw [List.mem_singleton.mp hd]
  exact h c htest

theorem isOver_exactly {text : String} (h : ∀ c ∈ text.toList, allowed c) :
    IsOver allowed (exactly text) := by
  intro word hword
  rw [Set.mem_singleton_iff.mp hword]
  exact h

theorem isOver_one : IsOver allowed 1 := by
  intro word hword c hc
  rw [(Language.mem_one word).mp hword] at hc
  exact absurd hc List.not_mem_nil

theorem IsOver.add (hfirst : IsOver allowed first) (hsecond : IsOver allowed second) :
    IsOver allowed (first + second) := by
  intro word hword
  rcases (Language.mem_add first second word).mp hword with h | h
  · exact hfirst word h
  · exact hsecond word h

theorem IsOver.mul (hfirst : IsOver allowed first) (hsecond : IsOver allowed second) :
    IsOver allowed (first * second) := by
  intro word hword
  obtain ⟨left, hleft, right, hright, rfl⟩ := Language.mem_mul.mp hword
  exact List.forall_mem_append.mpr ⟨hfirst left hleft, hsecond right hright⟩

theorem IsOver.maybe (h : IsOver allowed first) : IsOver allowed (maybe first) := isOver_one.add h

theorem IsOver.kstar (h : IsOver allowed first) : IsOver allowed (first∗) := by
  intro word hword c hc
  obtain ⟨parts, rfl, hparts⟩ := Language.mem_kstar.mp hword
  obtain ⟨part, hpart, hmem⟩ := List.mem_flatten.mp hc
  exact h part (hparts part hpart) c hmem

/-- Runs of digits hold digits and low lines. -/
theorem isOver_digits {isDigit : Char → Bool} (hdigit : ∀ c, isDigit c = true → allowed c)
    (hlow : allowed '_') : IsOver allowed (digits isDigit) := by
  have hone := isOver_oneOf hdigit
  have hmark : IsOver allowed (exactly "_") := isOver_exactly (List.forall_mem_singleton.mpr hlow)
  exact hone.mul (hmark.maybe.mul hone).kstar

/-- Pointed numbers hold a point besides. -/
theorem isOver_pointed {isDigit : Char → Bool} (hdigit : ∀ c, isDigit c = true → allowed c)
    (hlow : allowed '_') (hpoint : allowed '.') : IsOver allowed (pointed isDigit) := by
  have hdigits := isOver_digits hdigit hlow
  have hmark : IsOver allowed (exactly ".") := isOver_exactly (List.forall_mem_singleton.mpr hpoint)
  exact hdigits.mul (hmark.mul hdigits.maybe).maybe

theorem isOver_sign (hplus : allowed '+') (hminus : allowed '-') : IsOver allowed sign := by
  have hfirst : IsOver allowed (exactly "+") := isOver_exactly (List.forall_mem_singleton.mpr hplus)
  have hlast : IsOver allowed (exactly "-") := isOver_exactly (List.forall_mem_singleton.mpr hminus)
  exact (isOver_one.add hfirst).add hlast

end IsOver

/-- A text that may be missing is missing or there. -/
theorem mem_maybe_iff {language : Language Char} {word : List Char} :
    word ∈ maybe language ↔ word = [] ∨ word ∈ language := by
  rw [maybe, Language.mem_add, Language.mem_one]

theorem mem_exactly_mul_iff {text : String} {language : Language Char} {word : List Char} :
    word ∈ exactly text * language ↔ ∃ rest ∈ language, word = text.toList ++ rest := by
  rw [Language.mem_mul]
  constructor
  · rintro ⟨left, rfl, right, hright, rfl⟩
    exact ⟨right, hright, rfl⟩
  · rintro ⟨rest, hrest, rfl⟩
    exact ⟨_, rfl, rest, hrest, rfl⟩

/-! ### Runs of digits -/

section Digits

variable {isDigit : Char → Bool} {word : List Char}

/-- A further digit may stand in front of a run, with a low line behind it or without one. -/
theorem cons_mem_digits {c : Char} (hc : isDigit c = true) (h : word ∈ digits isDigit) :
    c :: word ∈ digits isDigit ∧ c :: '_' :: word ∈ digits isDigit := by
  obtain ⟨_, ⟨d, hd, rfl⟩, _, hrest, rfl⟩ := Language.mem_mul.mp h
  obtain ⟨parts, rfl, hparts⟩ := Language.mem_kstar.mp hrest
  have hsingle : [c] ∈ oneOf isDigit := ⟨c, hc, rfl⟩
  have hdigit : [d] ∈ oneOf isDigit := ⟨d, hd, rfl⟩
  have hplain : [d] ∈ maybe (exactly "_") * oneOf isDigit :=
    Language.mem_mul.mpr ⟨[], mem_maybe_iff.mpr (.inl rfl), [d], hdigit, rfl⟩
  have hmarked : ['_', d] ∈ maybe (exactly "_") * oneOf isDigit :=
    Language.mem_mul.mpr ⟨['_'], mem_maybe_iff.mpr (.inr rfl), [d], hdigit, rfl⟩
  have hbehind (part : List Char) (hpart : part ∈ maybe (exactly "_") * oneOf isDigit) :
      (part :: parts).flatten ∈ (maybe (exactly "_") * oneOf isDigit)∗ :=
    Language.join_mem_kstar (List.forall_mem_cons.mpr ⟨hpart, hparts⟩)
  exact ⟨Language.mem_mul.mpr ⟨[c], hsingle, _, hbehind [d] hplain, rfl⟩,
    Language.mem_mul.mpr ⟨[c], hsingle, _, hbehind ['_', d] hmarked, rfl⟩⟩

/-- A run that starts with a digit, and goes on with digits and low lines, is one. -/
theorem isDigits_of_parts (hlow : isDigit '_' = false) {c : Char} (hc : isDigit c = true)
    {parts : List (List Char)} (h : ∀ part ∈ parts, part ∈ maybe (exactly "_") * oneOf isDigit) :
    isDigits isDigit (c :: parts.flatten) = true := by
  induction parts generalizing c with
  | nil => exact hc
  | cons part parts ih =>
    obtain ⟨hpart, hothers⟩ := List.forall_mem_cons.mp h
    obtain ⟨mark, hmark, _, ⟨d, hd, rfl⟩, rfl⟩ := Language.mem_mul.mp hpart
    have hrest := ih hd hothers
    rcases mem_maybe_iff.mp hmark with rfl | rfl
    · have hne : d ≠ '_' := by
        rintro rfl
        rw [hlow] at hd
        cases hd
      simp [isDigits, hne, hc, hrest]
    · simp [isDigits, hc, hrest]

/-- The test for a run of digits accepts the runs. -/
theorem isDigits_iff (hlow : isDigit '_' = false) :
    isDigits isDigit word = true ↔ word ∈ digits isDigit := by
  constructor
  · intro h
    fun_induction isDigits isDigit word with
    | case1 => cases h
    | case2 c => exact Language.mem_mul.mpr ⟨[c], ⟨c, h, rfl⟩, [], Language.nil_mem_kstar _, rfl⟩
    | case3 c rest ih =>
      obtain ⟨hc, hrest⟩ := Bool.and_eq_true_iff.mp h
      exact (cons_mem_digits hc (ih hrest)).2
    | case4 c rest _ _ ih =>
      obtain ⟨hc, hrest⟩ := Bool.and_eq_true_iff.mp h
      exact (cons_mem_digits hc (ih hrest)).1
  · intro h
    obtain ⟨_, ⟨c, hc, rfl⟩, _, hrest, rfl⟩ := Language.mem_mul.mp h
    obtain ⟨parts, rfl, hparts⟩ := Language.mem_kstar.mp hrest
    exact isDigits_of_parts hlow hc hparts

end Digits

/-! ### Cutting at marks -/

section Cuts

variable {isMark : Char → Bool} {cs front behind : List Char}

/-- A text without marks is not cut. -/
theorem cutAt_of_forall (h : ∀ c ∈ cs, isMark c = false) : cutAt isMark cs = (cs, none) := by
  induction cs with
  | nil => rfl
  | cons c rest ih =>
    obtain ⟨hc, hrest⟩ := List.forall_mem_cons.mp h
    simp [cutAt, hc, ih hrest]

/-- A text is cut at its first mark. -/
theorem cutAt_append {mark : Char} (h : ∀ c ∈ front, isMark c = false)
    (hmark : isMark mark = true) :
    cutAt isMark (front ++ mark :: behind) = (front, some behind) := by
  induction front with
  | nil => simp [cutAt, hmark]
  | cons c rest ih =>
    obtain ⟨hc, hrest⟩ := List.forall_mem_cons.mp h
    simp [cutAt, hc, ih hrest]

/-- A text that is not cut is left as it is. -/
theorem eq_of_cutAt_none (h : cutAt isMark cs = (front, none)) : cs = front := by
  induction cs generalizing front with
  | nil =>
    cases h
    rfl
  | cons c rest ih =>
    rw [cutAt] at h
    split at h
    · cases h
    · rcases hcut : cutAt isMark rest with ⟨before, after⟩
      rw [hcut] at h
      cases h
      exact congrArg (c :: ·) (ih hcut)

/-- The parts of a text that is cut, with the mark between them, make it up. -/
theorem eq_of_cutAt_some (h : cutAt isMark cs = (front, some behind)) :
    ∃ mark, isMark mark = true ∧ cs = front ++ mark :: behind := by
  induction cs generalizing front with
  | nil => cases h
  | cons c rest ih =>
    rw [cutAt] at h
    split at h
    · rename_i hc
      cases h
      exact ⟨c, hc, rfl⟩
    · rcases hcut : cutAt isMark rest with ⟨before, after⟩
      rw [hcut] at h
      cases h
      obtain ⟨mark, hmark, heq⟩ := ih hcut
      exact ⟨mark, hmark, congrArg (c :: ·) heq⟩

/-- Assumes: no mark in any word of the first language. A word of it, with a mark and a word of the
second one behind it or without them, is told by cutting at the first mark. -/
theorem mem_mul_maybe_iff {first second : Language Char}
    (h : IsOver (fun c ↦ isMark c = false) first) :
    cs ∈ first * maybe (oneOf isMark * second) ↔
      match cutAt isMark cs with
      | (front, none) => front ∈ first
      | (front, some behind) => front ∈ first ∧ behind ∈ second := by
  constructor
  · intro hmem
    obtain ⟨front, hfront, rest, hrest, rfl⟩ := Language.mem_mul.mp hmem
    rcases mem_maybe_iff.mp hrest with rfl | hmarked
    · rw [List.append_nil, cutAt_of_forall (h front hfront)]
      exact hfront
    · obtain ⟨_, ⟨mark, hmark, rfl⟩, behind, hbehind, rfl⟩ := Language.mem_mul.mp hmarked
      have hcut : cutAt isMark (front ++ ([mark] ++ behind)) = (front, some behind) :=
        cutAt_append (h front hfront) hmark
      rw [hcut]
      exact ⟨hfront, hbehind⟩
  · intro hmem
    rcases hcut : cutAt isMark cs with ⟨front, _ | behind⟩
    · rw [hcut] at hmem
      rw [eq_of_cutAt_none hcut]
      exact Language.mem_mul.mpr ⟨front, hmem, [], mem_maybe_iff.mpr (.inl rfl),
        List.append_nil front⟩
    · rw [hcut] at hmem
      obtain ⟨hfront, hbehind⟩ := hmem
      obtain ⟨mark, hmark, hwhole⟩ := eq_of_cutAt_some hcut
      have hmarked : mark :: behind ∈ oneOf isMark * second :=
        Language.mem_mul.mpr ⟨[mark], ⟨mark, hmark, rfl⟩, behind, hbehind, rfl⟩
      rw [hwhole]
      exact Language.mem_mul.mpr ⟨front, hfront, _, mem_maybe_iff.mpr (.inr hmarked), rfl⟩

/-- Assumes: no word of the language starts with a sign. With a sign or without one it is told by
leaving the sign out. -/
theorem mem_sign_mul_iff {language : Language Char}
    (h : ∀ word ∈ language, ∀ c ∈ word.head?, c ≠ '+' ∧ c ≠ '-') :
    cs ∈ sign * language ↔ withoutSign cs ∈ language := by
  have hsigned (c : Char) (rest : List Char) (hc : [c] ∈ sign) (hrest : rest ∈ language) :
      c :: rest ∈ sign * language := Language.mem_mul.mpr ⟨[c], hc, rest, hrest, rfl⟩
  constructor
  · intro hmem
    obtain ⟨mark, hmark, rest, hrest, rfl⟩ := Language.mem_mul.mp hmem
    rcases hmark with (rfl | rfl) | rfl
    · have hsame : withoutSign rest = rest := by
        cases rest with
        | nil => rfl
        | cons c rest =>
          obtain ⟨hplus, hminus⟩ := h _ hrest c rfl
          unfold withoutSign
          split
          · rename_i heq
            cases heq
            exact absurd rfl hplus
          · rename_i heq
            cases heq
            exact absurd rfl hminus
          · rfl
      rw [List.nil_append, hsame]
      exact hrest
    · exact hrest
    · exact hrest
  · intro hmem
    unfold withoutSign at hmem
    split at hmem
    · exact hsigned '+' _ (.inl (.inr rfl)) hmem
    · exact hsigned '-' _ (.inr rfl) hmem
    · exact Language.mem_mul.mpr ⟨[], .inl (.inl rfl), cs, hmem, rfl⟩

end Cuts

/-! ### Literals -/

/-- The test for a pointed number accepts the pointed numbers. -/
theorem isPointed_iff {isDigit : Char → Bool} (hlow : isDigit '_' = false)
    (hpoint : isDigit '.' = false) {word : List Char} :
    isPointed isDigit word = true ↔ word ∈ pointed isDigit := by
  have hmark : exactly "." = oneOf (· == '.') := by
    ext found
    constructor
    · rintro rfl
      exact ⟨'.', rfl, rfl⟩
    · rintro ⟨c, hc, rfl⟩
      rw [eq_of_beq hc]
      rfl
  have hover : IsOver (fun c ↦ (c == '.') = false) (digits isDigit) := by
    refine isOver_digits (fun c hc ↦ beq_eq_false_iff_ne.mpr ?_) rfl
    rintro rfl
    rw [hpoint] at hc
    cases hc
  rw [pointed, hmark, mem_mul_maybe_iff hover, isPointed]
  rcases cutAt (· == '.') word with ⟨whole, _ | fraction⟩
  · exact isDigits_iff hlow
  · simp only [Bool.and_eq_true, Bool.or_eq_true, isDigits_iff hlow, mem_maybe_iff,
      List.isEmpty_iff]

/-- No run of digits starts with a sign. -/
theorem ne_sign_of_isOver {language : Language Char}
    (h : IsOver (fun c ↦ c ≠ '+' ∧ c ≠ '-') language) :
    ∀ word ∈ language, ∀ c ∈ word.head?, c ≠ '+' ∧ c ≠ '-' :=
  fun word hword c hc ↦ h word hword c (List.mem_of_mem_head? hc)

/-- A digit of some kind is none of some other characters. -/
theorem ne_of_digit {isDigit : Char → Bool} {c d : Char} (hc : isDigit c = true)
    (hd : isDigit d = false) : c ≠ d := by
  rintro rfl
  rw [hc] at hd
  cases hd

/-- The test for a number with an exponent accepts these numbers. -/
theorem isScaled_iff {isDigit isMark : Char → Bool} (hlow : isDigit '_' = false)
    (hpoint : isDigit '.' = false) (hdigit : ∀ c, isDigit c = true → isMark c = false)
    (hmarks : isMark '_' = false ∧ isMark '.' = false) {word : List Char} :
    isScaled isDigit isMark word = true ↔ word ∈ scaled isDigit isMark := by
  have hover : IsOver (fun c ↦ isMark c = false) (pointed isDigit) :=
    isOver_pointed hdigit hmarks.1 hmarks.2
  have hsigns : IsOver (fun c ↦ c ≠ '+' ∧ c ≠ '-') (digits Char.isDigit) :=
    isOver_digits (fun c hc ↦ ⟨ne_of_digit hc (by decide), ne_of_digit hc (by decide)⟩) (by decide)
  rw [scaled, mem_mul_maybe_iff hover, isScaled]
  rcases cutAt isMark word with ⟨significand, _ | scale⟩
  · exact isPointed_iff hlow hpoint
  · simp only [Bool.and_eq_true, isPointed_iff hlow hpoint, isDigits_iff (show
      Char.isDigit '_' = false by decide), mem_sign_mul_iff (ne_sign_of_isOver hsigns)]

/-- The test for an integer accepts the integer literals. -/
theorem isInteger_iff {word : List Char} : isInteger word = true ↔ word ∈ integer := by
  have hdecimal (c : Char) (hc : c.isDigit = true) : c ≠ '+' ∧ c ≠ '-' :=
    ⟨ne_of_digit hc (by decide), ne_of_digit hc (by decide)⟩
  have hhex (c : Char) (hc : Text.isHexDigit c = true) : c ≠ '+' ∧ c ≠ '-' :=
    ⟨ne_of_digit hc (by decide), ne_of_digit hc (by decide)⟩
  have hover : IsOver (fun c ↦ c ≠ '+' ∧ c ≠ '-')
      (exactly "0x" * digits Text.isHexDigit + digits Char.isDigit) :=
    ((isOver_exactly (by simp)).mul (isOver_digits hhex (by decide))).add
      (isOver_digits hdecimal (by decide))
  rw [integer, mem_sign_mul_iff (ne_sign_of_isOver hover), isInteger, Language.mem_add,
    mem_exactly_mul_iff]
  split
  · rename_i rest heq
    have hnone : '0' :: 'x' :: rest ∉ digits Char.isDigit := by
      intro hmem
      have hover : IsOver (· ≠ 'x') (digits Char.isDigit) :=
        isOver_digits (fun c hc ↦ ne_of_digit hc (by decide)) (by decide)
      exact hover _ hmem 'x' (by simp) rfl
    rw [isDigits_iff (by decide), heq]
    constructor
    · exact fun h ↦ .inl ⟨rest, h, rfl⟩
    · rintro (⟨found, hfound, hsame⟩ | h)
      · cases hsame
        exact hfound
      · exact absurd h hnone
  · rename_i hplain
    rw [isDigits_iff (by decide)]
    constructor
    · exact .inr
    · rintro (⟨found, -, hsame⟩ | h)
      · exact absurd hsame (hplain found)
      · exact h

/-- Numbers with an exponent hold digits, low lines, points, marks and signs. -/
theorem isOver_scaled {isDigit isMark : Char → Bool} {allowed : Char → Prop}
    (hdigit : ∀ c, isDigit c = true → allowed c) (hmark : ∀ c, isMark c = true → allowed c)
    (hdecimal : ∀ c, c.isDigit = true → allowed c) (hlow : allowed '_') (hpoint : allowed '.')
    (hplus : allowed '+') (hminus : allowed '-') : IsOver allowed (scaled isDigit isMark) :=
  (isOver_pointed hdigit hlow hpoint).mul
    ((isOver_oneOf hmark).mul ((isOver_sign hplus hminus).mul (isOver_digits hdecimal hlow))).maybe

/-- The marks of a decimal exponent. -/
theorem decimalMark_cases {c : Char} (h : (c == 'e' || c == 'E') = true) : c = 'e' ∨ c = 'E' := by
  simpa using h

/-- The marks of a hexadecimal exponent. -/
theorem hexMark_cases {c : Char} (h : (c == 'p' || c == 'P') = true) : c = 'p' ∨ c = 'P' := by
  simpa using h

/-- Decimal numbers hold no letter but the mark of the exponent. -/
theorem isOver_decimal : IsOver (fun c ↦ c ≠ 'i' ∧ c ≠ 'n' ∧ c ≠ 'x')
    (scaled Char.isDigit fun c ↦ c == 'e' || c == 'E') := by
  have hdigit (c : Char) (hc : c.isDigit = true) : c ≠ 'i' ∧ c ≠ 'n' ∧ c ≠ 'x' :=
    ⟨ne_of_digit hc (by decide), ne_of_digit hc (by decide), ne_of_digit hc (by decide)⟩
  refine isOver_scaled hdigit (fun c hc ↦ ?_) hdigit (by decide) (by decide) (by decide) (by decide)
  rcases decimalMark_cases hc with rfl | rfl <;> decide

/-- The kinds of numbers by what they start with. -/
theorem mem_unsignedFloat_iff {word : List Char} :
    word ∈ unsignedFloat ↔ word = ['i', 'n', 'f'] ∨ word = ['n', 'a', 'n'] ∨
      (∃ payload ∈ digits Text.isHexDigit,
        word = 'n' :: 'a' :: 'n' :: ':' :: '0' :: 'x' :: payload) ∨
      (∃ rest ∈ scaled Text.isHexDigit (fun c ↦ c == 'p' || c == 'P'), word = '0' :: 'x' :: rest) ∨
      word ∈ scaled Char.isDigit (fun c ↦ c == 'e' || c == 'E') := by
  have hinf : word ∈ exactly "inf" ↔ word = ['i', 'n', 'f'] := Iff.rfl
  have hnan : word ∈ exactly "nan" * maybe (exactly ":0x" * digits Text.isHexDigit) ↔
      word = ['n', 'a', 'n'] ∨ ∃ payload ∈ digits Text.isHexDigit,
        word = 'n' :: 'a' :: 'n' :: ':' :: '0' :: 'x' :: payload := by
    rw [mem_exactly_mul_iff]
    constructor
    · rintro ⟨rest, hrest, rfl⟩
      rcases mem_maybe_iff.mp hrest with rfl | hpayload
      · exact .inl rfl
      · obtain ⟨payload, hdigits, rfl⟩ := mem_exactly_mul_iff.mp hpayload
        exact .inr ⟨payload, hdigits, rfl⟩
    · rintro (rfl | ⟨payload, hdigits, rfl⟩)
      · exact ⟨[], mem_maybe_iff.mpr (.inl rfl), rfl⟩
      · exact ⟨_, mem_maybe_iff.mpr (.inr (mem_exactly_mul_iff.mpr ⟨payload, hdigits, rfl⟩)), rfl⟩
  rw [unsignedFloat, Language.mem_add, Language.mem_add, Language.mem_add, hinf, hnan,
    mem_exactly_mul_iff]
  simp only [or_assoc]
  rfl

/-- No number has more than one sign. -/
theorem ne_sign_of_mem_unsignedFloat : ∀ word ∈ unsignedFloat, ∀ c ∈ word.head?,
    c ≠ '+' ∧ c ≠ '-' := by
  intro word hword c hc
  rcases mem_unsignedFloat_iff.mp hword with rfl | rfl | ⟨_, -, rfl⟩ | ⟨_, -, rfl⟩ | hdecimal
  · cases hc
    decide
  · cases hc
    decide
  · cases hc
    decide
  · cases hc
    decide
  · obtain ⟨_, hpointed, _, -, rfl⟩ := Language.mem_mul.mp hdecimal
    obtain ⟨_, hdigits, _, -, rfl⟩ := Language.mem_mul.mp hpointed
    obtain ⟨_, ⟨d, hd, rfl⟩, _, -, rfl⟩ := Language.mem_mul.mp hdigits
    cases hc
    exact ⟨ne_of_digit hd (by decide), ne_of_digit hd (by decide)⟩

/-- The test for hexadecimal digits with an exponent accepts them. -/
theorem isScaled_hex_iff {word : List Char} :
    isScaled Text.isHexDigit (fun c ↦ c == 'p' || c == 'P') word = true ↔
      word ∈ scaled Text.isHexDigit (fun c ↦ c == 'p' || c == 'P') := by
  apply isScaled_iff (by decide) (by decide) _ (by decide)
  intro c hc
  refine Bool.eq_false_iff.mpr fun hmark ↦ ?_
  rcases hexMark_cases hmark with rfl | rfl <;> cases hc

/-- The test for decimal digits with an exponent accepts them. -/
theorem isScaled_decimal_iff {word : List Char} :
    isScaled Char.isDigit (fun c ↦ c == 'e' || c == 'E') word = true ↔
      word ∈ scaled Char.isDigit (fun c ↦ c == 'e' || c == 'E') := by
  apply isScaled_iff (by decide) (by decide) _ (by decide)
  intro c hc
  refine Bool.eq_false_iff.mpr fun hmark ↦ ?_
  rcases decimalMark_cases hmark with rfl | rfl <;> cases hc

/-- The test for a number accepts the float literals. -/
theorem isFloat_iff {word : List Char} : isFloat word = true ↔ word ∈ float := by
  rw [float, mem_sign_mul_iff ne_sign_of_mem_unsignedFloat, mem_unsignedFloat_iff, isFloat]
  split
  · rename_i heq
    exact iff_of_true rfl (.inl heq)
  · rename_i heq
    exact iff_of_true rfl (.inr (.inl heq))
  · rename_i payload heq
    rw [isDigits_iff (by decide), heq]
    constructor
    · exact fun h ↦ .inr (.inr (.inl ⟨payload, h, rfl⟩))
    · rintro (hsame | hsame | ⟨found, hfound, hsame⟩ | ⟨_, -, hsame⟩ | hplain)
      · cases hsame
      · cases hsame
      · cases hsame
        exact hfound
      · cases hsame
      · exact absurd rfl (isOver_decimal _ hplain 'n' (by simp)).2.1
  · rename_i rest heq
    rw [isScaled_hex_iff, heq]
    constructor
    · exact fun h ↦ .inr (.inr (.inr (.inl ⟨rest, h, rfl⟩)))
    · rintro (hsame | hsame | ⟨_, -, hsame⟩ | ⟨found, hfound, hsame⟩ | hplain)
      · cases hsame
      · cases hsame
      · cases hsame
      · cases hsame
        exact hfound
      · exact absurd rfl (isOver_decimal _ hplain 'x' (by simp)).2.2
  · rename_i hinf hnan hpayload hmarked
    rw [isScaled_decimal_iff]
    constructor
    · exact fun h ↦ .inr (.inr (.inr (.inr h)))
    · rintro (hsame | hsame | ⟨found, -, hsame⟩ | ⟨found, -, hsame⟩ | hplain)
      · exact absurd hsame hinf
      · exact absurd hsame hnan
      · exact absurd hsame (hpayload found)
      · exact absurd hsame (hmarked found)
      · exact hplain

/-! ### Numbers are words -/

/-- A character of a word that is no sigil. -/
def IsNumberChar (c : Char) : Prop := isIdChar c = true ∧ c ≠ '$' ∧ c ≠ '@'

instance : DecidablePred IsNumberChar := fun c ↦
  inferInstanceAs (Decidable (isIdChar c = true ∧ c ≠ '$' ∧ c ≠ '@'))

theorem isNumberChar_of_isHexDigit {c : Char} (h : Text.isHexDigit c = true) : IsNumberChar c := by
  have halphanumeric : c.isAlphanum = true := by
    simp only [Text.isHexDigit, Text.hexValue?, Char.le_def] at h
    delta Char.isAlphanum Char.isAlpha Char.isUpper Char.isLower Char.isDigit
    grind
  exact ⟨by simp [isIdChar, halphanumeric], ne_of_digit h (by decide), ne_of_digit h (by decide)⟩

theorem isNumberChar_of_isDigit {c : Char} (h : c.isDigit = true) : IsNumberChar c :=
  ⟨by simp [isIdChar, Char.isAlphanum, h], ne_of_digit h (by decide), ne_of_digit h (by decide)⟩

/-- The characters of numbers are those of words, and no sigils. -/
theorem isOver_float : IsOver IsNumberChar float := by
  have hpayload : IsOver IsNumberChar (digits Text.isHexDigit) :=
    isOver_digits (fun c ↦ isNumberChar_of_isHexDigit) (by decide)
  have hhex : IsOver IsNumberChar (scaled Text.isHexDigit fun c ↦ c == 'p' || c == 'P') := by
    refine isOver_scaled (fun c ↦ isNumberChar_of_isHexDigit) (fun c hc ↦ ?_)
      (fun c ↦ isNumberChar_of_isDigit) (by decide) (by decide) (by decide) (by decide)
    rcases hexMark_cases hc with rfl | rfl <;> decide
  have hdecimal : IsOver IsNumberChar (scaled Char.isDigit fun c ↦ c == 'e' || c == 'E') := by
    refine isOver_scaled (fun c ↦ isNumberChar_of_isDigit) (fun c hc ↦ ?_)
      (fun c ↦ isNumberChar_of_isDigit) (by decide) (by decide) (by decide) (by decide)
    rcases decimalMark_cases hc with rfl | rfl <;> decide
  have htext (text : String) (h : text.toList.all (fun c ↦ IsNumberChar c) = true) :
      IsOver IsNumberChar (exactly text) := by
    apply isOver_exactly
    simpa using h
  exact (isOver_sign (by decide) (by decide)).mul ((((htext "inf" (by decide)).add
    ((htext "nan" (by decide)).mul ((htext ":0x" (by decide)).mul hpayload).maybe)).add
      ((htext "0x" (by decide)).mul hhex)).add hdecimal)

/-- Integers are numbers. -/
theorem mem_float_of_mem_integer {word : List Char} (h : word ∈ integer) : word ∈ float := by
  have hscaled {isDigit isMark : Char → Bool} {run : List Char} (hrun : run ∈ digits isDigit) :
      run ∈ scaled isDigit isMark := by
    have hnothing (language : Language Char) : [] ∈ maybe language := mem_maybe_iff.mpr (.inl rfl)
    have hpointed : run ∈ pointed isDigit :=
      Language.mem_mul.mpr ⟨run, hrun, [], hnothing _, List.append_nil run⟩
    exact Language.mem_mul.mpr ⟨run, hpointed, [], hnothing _, List.append_nil run⟩
  obtain ⟨mark, hmark, rest, hrest, rfl⟩ := Language.mem_mul.mp h
  refine Language.append_mem_mul hmark (mem_unsignedFloat_iff.mpr ?_)
  rcases (Language.mem_add _ _ _).mp hrest with hhex | hdecimal
  · obtain ⟨payload, hpayload, rfl⟩ := mem_exactly_mul_iff.mp hhex
    exact .inr (.inr (.inr (.inl ⟨payload, hscaled hpayload, rfl⟩)))
  · exact .inr (.inr (.inr (.inr (hscaled hdecimal))))

/-- The empty text is no number. -/
theorem ne_nil_of_mem_float {word : List Char} (h : word ∈ float) : word ≠ [] := by
  rintro rfl
  have hfloat : isFloat [] = true := isFloat_iff.mpr h
  cases hfloat

end WatTypes.Lexeme.Syntax
