import Mathlib.Algebra.Group.Nat.Defs
import WatTypes.Text.Quoted

/-!
# Quoted text tells the text

A quoted text is that of a single text (`quoted_injective`), since each of its characters can be
read back from what it is quoted as, whatever stands behind (`readQuoted_quotedChar`). Quoted text
is free of control characters (`isClear_quoted`).
-/

set_option autoImplicit false
set_option relaxedAutoImplicit false

namespace WatTypes.Text

/-! ### Code points -/

/-- Assumes: as many digits as the number needs. The digits of a number denote it. -/
theorem ofDigits_hexDigits {width value : Nat} (h : value < 16 ^ width) :
    ofDigits 16 (hexDigits width value) = value := by
  induction width generalizing value with
  | zero =>
    have hzero : value = 0 := by simpa using h
    rw [hzero]
    rfl
  | succ width ih =>
    have hfront : value / 16 < 16 ^ width := by
      rw [Nat.div_lt_iff_lt_mul (by decide)]
      simpa [Nat.pow_succ] using h
    have hlast : value % 16 < 16 := Nat.mod_lt _ (by decide)
    rw [hexDigits, ofDigits, List.foldl_append, ← ofDigits, ih hfront]
    simp only [List.foldl_cons, List.foldl_nil, digitValue, hexValue?_hexDigit hlast,
      Option.getD_some]
    omega

theorem length_hexDigits (width value : Nat) : (hexDigits width value).length = width := by
  induction width generalizing value with
  | zero => rfl
  | succ width ih => simp [hexDigits, ih]

/-! ### Reading back -/

/-- Reads a code point in so many digits. -/
def readCodePoint (width : Nat) (text : List Char) : Char × List Char :=
  (Char.ofNat (ofDigits 16 (text.take width)), text.drop width)

/-- Reads a character of a quoted text. -/
def readQuoted : List Char → Option (Char × List Char)
  | [] => none
  | '\\' :: 'n' :: rest => some ('\n', rest)
  | '\\' :: 'r' :: rest => some ('\r', rest)
  | '\\' :: 't' :: rest => some ('\t', rest)
  | '\\' :: 'x' :: rest => some (readCodePoint 2 rest)
  | '\\' :: 'u' :: rest => some (readCodePoint 4 rest)
  | '\\' :: 'U' :: rest => some (readCodePoint 8 rest)
  | '\\' :: c :: rest => some (c, rest)
  | c :: rest => some (c, rest)

/-- A character is read from its code point in enough digits. -/
theorem readCodePoint_hexDigits {width : Nat} {c : Char} (h : c.toNat < 16 ^ width)
    (rest : List Char) : readCodePoint width (hexDigits width c.toNat ++ rest) = (c, rest) := by
  have hlength := length_hexDigits width c.toNat
  rw [readCodePoint, List.take_left' hlength, List.drop_left' hlength, ofDigits_hexDigits h,
    Char.ofNat_toNat]

/-- A character that is shown by its code point is read back. -/
theorem readQuoted_escapedCodePoint (c : Char) (rest : List Char) :
    readQuoted (escapedCodePoint c ++ rest) = some (c, rest) := by
  unfold escapedCodePoint
  split
  · rename_i hc
    have hdigits : c.toNat < 16 ^ 2 := Nat.lt_succ_of_le hc
    simp only [List.cons_append, readQuoted, readCodePoint_hexDigits hdigits]
  split
  · rename_i hc
    have hdigits : c.toNat < 16 ^ 4 := Nat.lt_succ_of_le hc
    simp only [List.cons_append, readQuoted, readCodePoint_hexDigits hdigits]
  · have hdigits : c.toNat < 16 ^ 8 := Nat.lt_of_lt_of_le c.val.toNat_lt (by decide)
    simp only [List.cons_append, readQuoted, readCodePoint_hexDigits hdigits]

/-- Assumes: a mark that texts are quoted with. A character of a quoted text is read back. -/
theorem readQuoted_quotedChar {mark : Char} (hmark : mark = '\'' ∨ mark = '"') (c : Char)
    (rest : List Char) : readQuoted (quotedChar mark c ++ rest) = some (c, rest) := by
  unfold quotedChar
  split
  · rename_i hc
    have hcases : c = '\'' ∨ c = '"' ∨ c = '\\' := by
      rcases hc with rfl | rfl
      · rcases hmark with rfl | rfl <;> simp
      · simp
    rcases hcases with rfl | rfl | rfl <;> rfl
  · rename_i hc
    split
    · rename_i hline
      rw [hline]
      rfl
    split
    · rename_i hreturn
      rw [hreturn]
      rfl
    split
    · rename_i htab
      rw [htab]
      rfl
    split
    · have hbackslash : c ≠ '\\' := fun hback ↦ hc (.inr hback)
      rw [List.singleton_append, readQuoted]
      all_goals simp_all
    · exact readQuoted_escapedCodePoint c rest

/-! ### Whole texts -/

theorem quotationMark_cases (text : List Char) :
    quotationMark text = '\'' ∨ quotationMark text = '"' := by
  unfold quotationMark
  split
  · exact .inr rfl
  · exact .inl rfl

/-- Assumes: a mark that texts are quoted with. Characters quoted one by one are those of a single
text. -/
theorem flatMap_quotedChar_injective {mark : Char} (hmark : mark = '\'' ∨ mark = '"')
    {text other : List Char}
    (h : text.flatMap (quotedChar mark) = other.flatMap (quotedChar mark)) : text = other := by
  induction text generalizing other with
  | nil =>
    cases other with
    | nil => rfl
    | cons d others =>
      have hread := readQuoted_quotedChar hmark d (others.flatMap (quotedChar mark))
      rw [← List.flatMap_cons, ← h] at hread
      cases hread
  | cons c rest ih =>
    have hread := readQuoted_quotedChar hmark c (rest.flatMap (quotedChar mark))
    rw [← List.flatMap_cons, h] at hread
    cases other with
    | nil => cases hread
    | cons d others =>
      rw [List.flatMap_cons, readQuoted_quotedChar hmark, Option.some.injEq, Prod.mk.injEq] at hread
      obtain ⟨rfl, hrest⟩ := hread
      rw [ih hrest.symm]

/-- Different texts are quoted differently. -/
theorem quoted_injective : Function.Injective quoted := by
  intro text other h
  have hcharacters := String.ofList_injective h
  rw [List.cons_append, List.cons_append, List.cons.injEq] at hcharacters
  obtain ⟨hmark, hbody⟩ := hcharacters
  rw [hmark] at hbody
  have hsame := flatMap_quotedChar_injective (quotationMark_cases _)
    (List.append_cancel_right hbody)
  exact String.toList_injective hsame

/-! ### Control characters -/

/-- A text without control characters, among which are the line feed and the escape character. -/
def IsClear (text : List Char) : Prop := ∀ c ∈ text, 32 ≤ c.toNat

instance (text : List Char) : Decidable (IsClear text) :=
  List.decidableBAll (fun c : Char ↦ 32 ≤ c.toNat) text

theorem IsClear.append {text more : List Char} (htext : IsClear text) (hmore : IsClear more) :
    IsClear (text ++ more) := fun c hc ↦
  (List.mem_append.mp hc).elim (htext c) (hmore c)

/-- A printable character is no control character. -/
theorem le_toNat_of_isPrintable {c : Char} (h : isPrintable c = true) : 32 ≤ c.toNat := by
  apply Nat.le_of_not_lt
  intro hcontrol
  have hcontains : unprintables.contains c = true :=
    (CodePoints.contains_iff _ c).mpr
      ⟨(0x0, 0x1f), .head _, Nat.zero_le _, Nat.le_of_lt_succ hcontrol⟩
  rw [isPrintable, hcontains] at h
  cases h

theorem isClear_hexDigits (width value : Nat) : IsClear (hexDigits width value) := by
  have hall : ∀ digit : Fin 16, 32 ≤ (hexDigit digit).toNat := by decide
  intro c hc
  obtain ⟨digit, rfl⟩ := exists_hexDigit_of_mem hc
  exact hall digit

theorem isClear_escapedCodePoint (c : Char) : IsClear (escapedCodePoint c) := by
  have hmarked {letter : Char} (hletter : 32 ≤ letter.toNat) (width : Nat) :
      IsClear ('\\' :: letter :: hexDigits width c.toNat) := by
    have hfront : IsClear ['\\', letter] := by
      simp only [IsClear, List.mem_cons, List.not_mem_nil, or_false, forall_eq_or_imp, forall_eq]
      exact ⟨by decide, hletter⟩
    exact hfront.append (isClear_hexDigits width c.toNat)
  unfold escapedCodePoint
  split
  · exact hmarked (by decide) 2
  split
  · exact hmarked (by decide) 4
  · exact hmarked (by decide) 8

theorem isClear_quotedChar {mark : Char} (hmark : mark = '\'' ∨ mark = '"') (c : Char) :
    IsClear (quotedChar mark c) := by
  unfold quotedChar
  split
  · rename_i hc
    rcases hc with rfl | rfl
    · rcases hmark with rfl | rfl <;> decide
    · decide
  split
  · decide
  split
  · decide
  split
  · decide
  split
  · rename_i hprintable
    intro d hd
    rw [List.mem_singleton.mp hd]
    exact le_toNat_of_isPrintable hprintable
  · exact isClear_escapedCodePoint c

/-- Quoted text has no control characters. -/
theorem isClear_quoted (text : String) : IsClear (quoted text).toList := by
  have hcases := quotationMark_cases text.toList
  have hmark : IsClear [quotationMark text.toList] := by
    rcases hcases with h | h <;> rw [h] <;> decide
  rw [quoted, String.toList_ofList, ← List.singleton_append]
  refine (hmark.append fun c hc ↦ ?_).append hmark
  obtain ⟨d, -, hd⟩ := List.mem_flatMap.mp hc
  exact isClear_quotedChar hcases d c hd

end WatTypes.Text
