import WatTypes.Proofs.Lexical.Number

/-!
# Lenient numerals as a relation

What stands in the braces of a code point escape may be written in more ways than the grammar has:
with padding around it, a sign, a marker behind a leading zero, and low lines, in digits of any
script. `Denotes` says which texts these are and which integer each denotes, without saying how it
is read, and reading agrees with it (`value?_eq_some_iff`): a text is accepted as a character if and
only if it denotes the code point of the character (`codePoint?_eq_some_iff`).
-/

set_option autoImplicit false
set_option relaxedAutoImplicit false

namespace WatTypes.Text

/-! ### Numerals -/

namespace HexNumeral

/-- Digits, with single low lines between them, that carry a value on to a number. -/
inductive Digits : Nat → List Char → Nat → Prop
  /-- The last digit. -/
  | last {value digit : Nat} {c : Char} : digitValue? c = some digit →
    Digits value [c] (value * 16 + digit)
  /-- A digit in front. -/
  | digit {value digit number : Nat} {c : Char} {rest : List Char} : digitValue? c = some digit →
    Digits (value * 16 + digit) rest number → Digits value (c :: rest) number
  /-- A digit and a low line in front. -/
  | lowLine {value digit number : Nat} {c : Char} {rest : List Char} : digitValue? c = some digit →
    Digits (value * 16 + digit) rest number → Digits value (c :: '_' :: rest) number

/-- Digits, with a zero and a marker in front of them or without, that denote a number. -/
inductive Magnitude : List Char → Nat → Prop
  /-- Digits alone. -/
  | digits {digits : List Char} {number : Nat} : Digits 0 digits number → Magnitude digits number
  /-- A zero and a marker in front. -/
  | marker {zero mark : Char} {digits : List Char} {number : Nat} : digitValue? zero = some 0 →
    mark = 'x' ∨ mark = 'X' → Digits 0 digits number → Magnitude (zero :: mark :: digits) number
  /-- A zero, a marker and a low line in front. -/
  | markerLowLine {zero mark : Char} {digits : List Char} {number : Nat} :
    digitValue? zero = some 0 → mark = 'x' ∨ mark = 'X' → Digits 0 digits number →
    Magnitude (zero :: mark :: '_' :: digits) number

/-- A magnitude with a sign or without one, that denotes an integer. -/
inductive Signed : List Char → Int → Prop
  /-- No sign. -/
  | unsigned {text : List Char} {number : Nat} : Magnitude text number → Signed text number
  /-- A sign that changes nothing. -/
  | plus {text : List Char} {number : Nat} : Magnitude text number → Signed ('+' :: text) number
  /-- A negative number. -/
  | minus {text : List Char} {number : Nat} : Magnitude text number →
    Signed ('-' :: text) (-(number : Int))

/-- A text denotes an integer: padding, a numeral of the integer, and padding again. -/
inductive Denotes : List Char → Int → Prop
  /-- Padding on both sides. -/
  | padded {front inner behind : List Char} {value : Int} : (∀ c ∈ front, isPadding c = true) →
    Signed inner value → (∀ c ∈ behind, isPadding c = true) →
    Denotes (front ++ (inner ++ behind)) value

/-! ### Digits -/

/-- Hexadecimal digits lie among the visible characters of ASCII. -/
theorem toNat_of_isHexDigit {c : Char} (h : isHexDigit c = true) :
    48 ≤ c.toNat ∧ c.toNat < 128 := by
  have hrange : ('0' ≤ c ∧ c ≤ '9') ∨ ('a' ≤ c ∧ c ≤ 'f') ∨ 'A' ≤ c ∧ c ≤ 'F' := by
    by_contra hnone
    simp only [not_or] at hnone
    obtain ⟨hdecimal, hlower, hupper⟩ := hnone
    rw [isHexDigit, hexValue?, if_neg hdecimal, if_neg hlower, if_neg hupper] at h
    cases h
  have hle (low high : Char) (hbounds : low ≤ c ∧ c ≤ high) :
      low.toNat ≤ c.toNat ∧ c.toNat ≤ high.toNat := hbounds
  rcases hrange with hdecimal | hlower | hupper
  · exact ⟨(hle _ _ hdecimal).1, Nat.lt_of_le_of_lt (hle _ _ hdecimal).2 (by decide)⟩
  · exact ⟨Nat.le_trans (by decide) (hle _ _ hlower).1,
      Nat.lt_of_le_of_lt (hle _ _ hlower).2 (by decide)⟩
  · exact ⟨Nat.le_trans (by decide) (hle _ _ hupper).1,
      Nat.lt_of_le_of_lt (hle _ _ hupper).2 (by decide)⟩

/-- No decimal digit of any script is blank. -/
theorem isBlank_of_decimalDigit? {c : Char} {value : Nat} (h : decimalDigit? c = some value) :
    isBlank c = false := by
  obtain ⟨offset, hoffset, -⟩ := Option.map_eq_some_iff.mp h
  obtain ⟨run, hrun, -⟩ := Option.map_eq_some_iff.mp hoffset
  have hmem := List.mem_of_find?_eq_some hrun
  have hinside := List.find?_some hrun
  simp only [Bool.and_eq_true, decide_eq_true_eq] at hinside
  have hapart : ∀ blank ∈ blanks.runs, ∀ digits ∈ decimalDigits.runs,
      blank.2 < digits.1 ∨ digits.2 < blank.1 := by decide +kernel
  rw [isBlank, ← Bool.not_eq_true, CodePoints.contains_iff]
  rintro ⟨blank, hblank, hlow, hhigh⟩
  rcases hapart blank hblank run hmem with hbefore | hbehind
  · omega
  · omega

/-- Digits are no padding. -/
theorem isPadding_of_digitValue? {c : Char} {value : Nat} (h : digitValue? c = some value) :
    isPadding c = false := by
  have hvisible (hlow : 48 ≤ c.toNat) : ¬ c ≤ '\r' ∧ c ≠ ' ' := by
    constructor
    · intro hle
      have hcode : c.toNat ≤ '\r'.toNat := hle
      have hreturn : '\r'.toNat = 13 := rfl
      omega
    · rintro rfl
      exact absurd hlow (by decide)
  unfold digitValue? at h
  split at h
  · rename_i hsmall
    have hdigit : isHexDigit c = true := by rw [isHexDigit, h, Option.isSome_some]
    obtain ⟨hreturn, hspace⟩ := hvisible (toNat_of_isHexDigit hdigit).1
    have hascii : ¬ 127 < c.toNat := by omega
    simp [isPadding, hreturn, hspace, hascii]
  · rename_i hlarge
    obtain ⟨hreturn, hspace⟩ := hvisible (by omega)
    simp [isPadding, hreturn, hspace, isBlank_of_decimalDigit? h]

variable {text digits : List Char} {value number : Nat}

/-- Digits start with a digit. -/
theorem Digits.exists_head (h : Digits value digits number) :
    ∃ c rest digit, digits = c :: rest ∧ digitValue? c = some digit := by
  cases h with
  | last hc | digit hc _ | lowLine hc _ => exact ⟨_, _, _, rfl, hc⟩

/-- Digits end with a digit. -/
theorem Digits.exists_last (h : Digits value digits number) :
    ∃ front c digit, digits = front ++ [c] ∧ digitValue? c = some digit := by
  induction h with
  | last hc => exact ⟨[], _, _, rfl, hc⟩
  | digit _ _ ih =>
    obtain ⟨front, c, digit, rfl, hc⟩ := ih
    exact ⟨_ :: front, c, digit, rfl, hc⟩
  | lowLine _ _ ih =>
    obtain ⟨front, c, digit, rfl, hc⟩ := ih
    exact ⟨_ :: '_' :: front, c, digit, rfl, hc⟩

/-- What starts with a digit does not start with a character that is none. -/
theorem ne_cons_of_digitValue? (h : ∃ c rest digit, text = c :: rest ∧ digitValue? c = some digit)
    {c : Char} (hc : digitValue? c = none) (rest : List Char) : text ≠ c :: rest := by
  obtain ⟨first, others, digit, rfl, hfirst⟩ := h
  rintro heq
  rw [(List.cons.inj heq).1, hc] at hfirst
  cases hfirst

/-- Behind their first digit, digits go on with a digit or a low line. -/
theorem Digits.second {first second : Char} {rest : List Char}
    (h : Digits value (first :: second :: rest) number) :
    second = '_' ∨ ∃ digit, digitValue? second = some digit := by
  cases h with
  | digit _ hothers =>
    obtain ⟨c, others, digit, heq, hc⟩ := hothers.exists_head
    exact .inr ⟨digit, (List.cons.inj heq).1 ▸ hc⟩
  | lowLine _ _ => exact .inl rfl

/-- The digits that are read are those that carry the value on. -/
theorem valueFrom?_eq_some_iff :
    valueFrom? value text = some number ↔ Digits value text number := by
  constructor
  · intro h
    fun_induction valueFrom? value text with
    | case1 => cases h
    | case2 value c =>
      obtain ⟨digit, hc, rfl⟩ := Option.map_eq_some_iff.mp h
      exact .last hc
    | case3 value c rest ih =>
      obtain ⟨digit, hc, hrest⟩ := Option.bind_eq_some_iff.mp h
      exact .lowLine hc (ih digit hrest)
    | case4 value c rest _ _ ih =>
      obtain ⟨digit, hc, hrest⟩ := Option.bind_eq_some_iff.mp h
      exact .digit hc (ih digit hrest)
  · intro h
    induction h with
    | last hc => rw [valueFrom?, hc, Option.map_some]
    | digit hc hrest ih =>
      rw [valueFrom?, hc, Option.bind_some, ih]
      · rintro rfl
        cases hrest
      · exact fun others ↦ ne_cons_of_digitValue? hrest.exists_head (by decide) others
    | lowLine hc _ ih => rw [valueFrom?, hc, Option.bind_some, ih]

/-! ### Magnitudes -/

/-- What is read behind a marker is the magnitude. -/
theorem valueFrom?_withoutMarker_iff :
    valueFrom? 0 (withoutMarker text) = some number ↔ Magnitude text number := by
  rw [valueFrom?_eq_some_iff]
  constructor
  · intro h
    unfold withoutMarker at h
    split at h
    · rename_i zero mark rest
      split at h
      · rename_i hmarker
        unfold withoutLowLine at h
        split at h
        · exact .markerLowLine hmarker.1 hmarker.2 h
        · exact .marker hmarker.1 hmarker.2 h
      · exact .digits h
    · exact .digits h
  · intro h
    cases h with
    | digits hdigits =>
      have hsame : withoutMarker text = text := by
        rcases text with _ | ⟨first, _ | ⟨second, rest⟩⟩
        · rfl
        · rfl
        · have hmark : ¬(second = 'x' ∨ second = 'X') := by
            rcases hdigits.second with rfl | ⟨digit, hsecond⟩
            · decide
            · rintro (rfl | rfl) <;> cases hsecond
          exact if_neg fun hmarker ↦ hmark hmarker.2
      rwa [hsame]
    | @marker zero mark digits number hzero hmark hdigits =>
      have hsame : withoutLowLine digits = digits := by
        rw [withoutLowLine]
        exact fun rest ↦ ne_cons_of_digitValue? hdigits.exists_head (by decide) rest
      rwa [withoutMarker, if_pos ⟨hzero, hmark⟩, hsame]
    | markerLowLine hzero hmark hdigits => rwa [withoutMarker, if_pos ⟨hzero, hmark⟩]

/-- A magnitude starts with a digit. -/
theorem Magnitude.exists_head (h : Magnitude text number) :
    ∃ c rest digit, text = c :: rest ∧ digitValue? c = some digit := by
  cases h with
  | digits hdigits => exact hdigits.exists_head
  | marker hzero _ _ | markerLowLine hzero _ _ => exact ⟨_, _, _, rfl, hzero⟩

/-- A magnitude ends with a digit. -/
theorem Magnitude.exists_last (h : Magnitude text number) :
    ∃ front c digit, text = front ++ [c] ∧ digitValue? c = some digit := by
  cases h with
  | digits hdigits => exact hdigits.exists_last
  | @marker zero mark _ _ _ _ hdigits =>
    obtain ⟨front, c, digit, rfl, hc⟩ := hdigits.exists_last
    exact ⟨zero :: mark :: front, c, digit, rfl, hc⟩
  | @markerLowLine zero mark _ _ _ _ hdigits =>
    obtain ⟨front, c, digit, rfl, hc⟩ := hdigits.exists_last
    exact ⟨zero :: mark :: '_' :: front, c, digit, rfl, hc⟩

/-! ### Signs and padding -/

/-- A numeral starts and ends with characters that are no padding. -/
theorem Signed.ends {inner : List Char} {value : Int} (h : Signed inner value) :
    (∃ c rest, inner = c :: rest ∧ isPadding c = false) ∧
      ∃ front c, inner = front ++ [c] ∧ isPadding c = false := by
  cases h with
  | unsigned hmagnitude =>
    obtain ⟨c, rest, digit, hhead, hc⟩ := hmagnitude.exists_head
    obtain ⟨front, last, digit', hlast, hd⟩ := hmagnitude.exists_last
    exact ⟨⟨c, rest, hhead, isPadding_of_digitValue? hc⟩,
      ⟨front, last, hlast, isPadding_of_digitValue? hd⟩⟩
  | plus hmagnitude =>
    obtain ⟨front, last, digit, rfl, hd⟩ := hmagnitude.exists_last
    exact ⟨⟨'+', _, rfl, by decide⟩, ⟨'+' :: front, last, rfl, isPadding_of_digitValue? hd⟩⟩
  | minus hmagnitude =>
    obtain ⟨front, last, digit, rfl, hd⟩ := hmagnitude.exists_last
    exact ⟨⟨'-', _, rfl, by decide⟩, ⟨'-' :: front, last, rfl, isPadding_of_digitValue? hd⟩⟩

/-- Padding is dropped on both sides, up to what is no padding. -/
theorem exists_withoutPadding (text : List Char) :
    ∃ front behind, text = front ++ (withoutPadding text ++ behind) ∧
      (∀ c ∈ front, isPadding c = true) ∧ ∀ c ∈ behind, isPadding c = true := by
  let left := text.dropWhile isPadding
  refine ⟨text.takeWhile isPadding, (left.reverse.takeWhile isPadding).reverse, ?_,
    List.all_eq_true.mp List.all_takeWhile, fun c hc ↦
      List.all_eq_true.mp List.all_takeWhile c (List.mem_reverse.mp hc)⟩
  have hleft : withoutPadding text ++ (left.reverse.takeWhile isPadding).reverse = left := by
    rw [withoutPadding, ← List.reverse_append, List.takeWhile_append_dropWhile,
      List.reverse_reverse]
  rw [hleft, List.takeWhile_append_dropWhile]

/-- A numeral is what is left when the padding around it is dropped. -/
theorem withoutPadding_of_signed {front inner behind : List Char} {value : Int}
    (hfront : ∀ c ∈ front, isPadding c = true) (h : Signed inner value)
    (hbehind : ∀ c ∈ behind, isPadding c = true) :
    withoutPadding (front ++ (inner ++ behind)) = inner := by
  obtain ⟨⟨first, rest, hhead, hfirst⟩, before, last, hlast, hend⟩ := h.ends
  have hleft : (front ++ (inner ++ behind)).dropWhile isPadding = inner ++ behind := by
    rw [List.dropWhile_append_of_pos hfront, hhead]
    exact List.dropWhile_cons_of_neg (by simp [hfirst])
  have hright : (inner ++ behind).reverse.dropWhile isPadding = inner.reverse := by
    rw [List.reverse_append,
      List.dropWhile_append_of_pos fun c hc ↦ hbehind c (List.mem_reverse.mp hc), hlast,
      List.reverse_append]
    exact List.dropWhile_cons_of_neg (by simp [hend])
  rw [withoutPadding, hleft, hright, List.reverse_reverse]

/-- What is read is the integer that a text denotes. -/
theorem value?_eq_some_iff {value : Int} : value? text = some value ↔ Denotes text value := by
  constructor
  · intro h
    obtain ⟨front, behind, htext, hfront, hbehind⟩ := exists_withoutPadding text
    rw [htext]
    refine .padded hfront ?_ hbehind
    unfold value? at h
    split at h
    all_goals
      simp only [Option.map_eq_some_iff, Option.bind_eq_bind, Option.bind_eq_some_iff,
        Option.pure_def, Option.some.injEq] at h
      obtain ⟨_, ⟨number, hnumber, rfl⟩, rfl⟩ := h
      have hmagnitude := valueFrom?_withoutMarker_iff.mp hnumber
    · rename_i hinner
      exact hinner ▸ .minus hmagnitude
    · rename_i hinner
      exact hinner ▸ .plus hmagnitude
    · exact .unsigned hmagnitude
  · rintro ⟨hfront, hsigned, hbehind⟩
    rw [value?, withoutPadding_of_signed hfront hsigned hbehind]
    cases hsigned with
    | plus hmagnitude | minus hmagnitude =>
      simp only [valueFrom?_withoutMarker_iff.mpr hmagnitude]
      rfl
    | unsigned hmagnitude =>
      have hsign := @ne_cons_of_digitValue? _ hmagnitude.exists_head
      split
      · exact absurd rfl (hsign (by decide : digitValue? '-' = none) _)
      · exact absurd rfl (hsign (by decide : digitValue? '+' = none) _)
      · rw [valueFrom?_withoutMarker_iff.mpr hmagnitude]
        rfl

/-! ### Code points -/

/-- The number of a character is the code point of that character. -/
theorem scalar?_toNat (c : Char) : scalar? (c.toNat : Int) = some c := by
  have hvalid : c.toNat.isValidChar := c.valid
  have hchar : Char.ofNatAux c.toNat hvalid = c := rfl
  rw [← hchar]
  exact dif_pos hvalid

/-- A number denotes a character only if it is its code point. -/
theorem toNat_of_scalar? {code : Nat} {c : Char} (h : scalar? (code : Int) = some c) :
    code = c.toNat := by
  change (if hvalid : code.isValidChar then some (Char.ofNatAux code hvalid) else none) =
    some c at h
  by_cases hvalid : code.isValidChar
  · rw [dif_pos hvalid] at h
    cases h
    rfl
  · rw [dif_neg hvalid] at h
    cases h

/-- A text is accepted as a character if and only if it denotes the code point of the character. -/
theorem codePoint?_eq_some_iff {c : Char} : codePoint? text = some c ↔ Denotes text c.toNat := by
  rw [← value?_eq_some_iff, codePoint?, Option.bind_eq_some_iff]
  constructor
  · rintro ⟨value, hvalue, hscalar⟩
    cases value with
    | ofNat code => rw [hvalue, ← toNat_of_scalar? hscalar]; rfl
    | negSucc code => cases hscalar
  · intro h
    exact ⟨c.toNat, h, scalar?_toNat c⟩

/-! ### Hexadecimal digits alone -/

/-- Hexadecimal digits carry a value on. -/
theorem digits_of_isHexDigit (hne : digits ≠ []) (h : ∀ digit ∈ digits, isHexDigit digit = true)
    (value : Nat) : Digits value digits
      (digits.foldl (fun value c ↦ value * 16 + digitValue c) value) := by
  have hdigit (c : Char) (hc : isHexDigit c = true) : digitValue? c = some (digitValue c) := by
    obtain ⟨found, hfound⟩ := Option.isSome_iff_exists.mp hc
    rw [digitValue?, if_pos (toNat_of_isHexDigit hc).2, digitValue, hfound, Option.getD_some]
  induction digits generalizing value with
  | nil => exact absurd rfl hne
  | cons c rest ih =>
    obtain ⟨hc, hrest⟩ := List.forall_mem_cons.mp h
    rw [List.foldl_cons]
    cases rest with
    | nil => exact .last (hdigit c hc)
    | cons second others => exact .digit (hdigit c hc) (ih (List.cons_ne_nil _ _) hrest _)

/-- Hexadecimal digits denote their number. -/
theorem denotes_of_isHexDigit (hne : digits ≠ [])
    (h : ∀ digit ∈ digits, isHexDigit digit = true) :
    Denotes digits (ofDigits 16 digits) := by
  have hmagnitude : Magnitude digits (ofDigits 16 digits) :=
    .digits (digits_of_isHexDigit hne h 0)
  have hpadded : Denotes ([] ++ (digits ++ [])) (ofDigits 16 digits) :=
    .padded (List.forall_mem_nil _) (.unsigned hmagnitude) (List.forall_mem_nil _)
  rwa [List.nil_append, List.append_nil] at hpadded

/-- Hexadecimal digits denote a character if and only if they are its code point. -/
theorem denotes_toNat_iff (hne : digits ≠ []) (h : ∀ digit ∈ digits, isHexDigit digit = true)
    {c : Char} : Denotes digits c.toNat ↔ ofDigits 16 digits = c.toNat := by
  rw [← value?_eq_some_iff, value?_eq_some_iff.mpr (denotes_of_isHexDigit hne h),
    Option.some.injEq, Int.natCast_inj]

/-- The empty text denotes no integer. -/
theorem not_denotes_nil (value : Int) : ¬Denotes [] value := by
  rw [← value?_eq_some_iff]
  exact fun h ↦ nomatch h

end HexNumeral

end WatTypes.Text
