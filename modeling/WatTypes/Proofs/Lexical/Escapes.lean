import WatTypes.Proofs.Layout.Spelling
import WatTypes.Proofs.Lexical.Numeral

/-!
# Literals as they are accepted

The reader of code point escapes accepts more than the grammar of string literals has: whatever
numeral of the code point stands in the braces, with blanks, a sign or a marker around its digits.
A text between quotation marks is accepted exactly if it is made up of such pieces
(`isLiteralBody_iff_lenientInside`), and it is a literal of the grammar exactly if there are
hexadecimal digits alone in its braces (`stringInside_iff`), as `codePointTexts` finds them.
-/

set_option autoImplicit false
set_option relaxedAutoImplicit false

namespace WatTypes

namespace Lexeme

open Syntax Text.HexNumeral

/-- The texts in the braces of the code point escapes in a text. -/
def codePointTexts : List Char → List (List Char)
  | [] => []
  | '\\' :: 'u' :: '{' :: body =>
    body.takeWhile (· ≠ '}') :: codePointTexts (body.dropWhile (· ≠ '}'))
  | '\\' :: _ :: rest => codePointTexts rest
  | _ :: rest => codePointTexts rest
termination_by cs => cs.length
decreasing_by
  · have := (List.dropWhile_sublist (l := body) (· ≠ '}')).length_le
    simp only [List.length_cons]
    omega
  · simp only [List.length_cons]
    omega
  · exact Nat.lt_succ_self _

theorem codePointTexts_nil : codePointTexts [] = [] := by
  rw [codePointTexts]

theorem codePointTexts_of_ne {c : Char} (h : c ≠ '\\') (rest : List Char) :
    codePointTexts (c :: rest) = codePointTexts rest := by
  rw [codePointTexts]
  · exact fun _ hc ↦ absurd hc h
  · exact fun _ _ hc ↦ absurd hc h

theorem codePointTexts_letter {c : Char} (h : c ≠ 'u') (rest : List Char) :
    codePointTexts ('\\' :: c :: rest) = codePointTexts rest := by
  rw [codePointTexts]
  exact fun _ hc ↦ absurd hc h

theorem codePointTexts_codePoint {numeral : List Char} (h : '}' ∉ numeral) (rest : List Char) :
    codePointTexts ('\\' :: 'u' :: '{' :: (numeral ++ '}' :: rest)) =
      numeral :: codePointTexts rest := by
  have hinside : ∀ c ∈ numeral, decide (c ≠ '}') = true := fun c hc ↦
    decide_eq_true fun heq ↦ h (heq ▸ hc)
  have hclose : ∀ c ∈ ('}' :: rest).head?, decide (c ≠ '}') = false := by simp
  obtain ⟨htake, hdrop⟩ := takeWhile_append_of_head? hinside hclose
  rw [codePointTexts, htake, hdrop, codePointTexts_of_ne (by decide)]

/-- The text in the braces of an escape starts behind its opening brace, and goes up to the next
closing one. -/
theorem exists_append_of_mem_codePointTexts {text digits : List Char}
    (h : digits ∈ codePointTexts text) :
    ∃ front body, text = front ++ '\\' :: 'u' :: '{' :: body ∧
      digits = body.takeWhile (· ≠ '}') := by
  fun_induction codePointTexts text with
  | case1 => cases h
  | case2 body ih =>
    rcases List.mem_cons.mp h with rfl | hbehind
    · exact ⟨[], body, rfl, rfl⟩
    · obtain ⟨front, inside, hrest, rfl⟩ := ih hbehind
      refine ⟨'\\' :: 'u' :: '{' :: (body.takeWhile (· ≠ '}') ++ front), inside, ?_, rfl⟩
      have hbody := List.takeWhile_append_dropWhile (p := (· ≠ '}')) (l := body)
      rw [hrest, ← List.append_assoc] at hbody
      exact congrArg ('\\' :: 'u' :: '{' :: ·) hbody.symm
  | case3 c rest _ ih =>
    obtain ⟨front, body, rfl, rfl⟩ := ih h
    exact ⟨'\\' :: c :: front, body, rfl, rfl⟩
  | case4 c rest _ _ ih =>
    obtain ⟨front, body, rfl, rfl⟩ := ih h
    exact ⟨c :: front, body, rfl, rfl⟩

/-! ### Pieces as they are accepted -/

/-- A piece of a literal as it is accepted, with the bytes it stands for. -/
inductive LenientPiece : List Char → List UInt8 → Prop
  /-- A piece of the grammar. -/
  | plain {piece : List Char} {bytes : List UInt8} : StringPiece piece bytes →
    LenientPiece piece bytes
  /-- A character by any numeral of its code point. -/
  | codePoint {numeral : List Char} {c : Char} : '}' ∉ numeral → Denotes numeral c.toNat →
    LenientPiece ('\\' :: 'u' :: '{' :: numeral ++ ['}']) (String.utf8EncodeChar c)

/-- The inside of a literal as it is accepted, with the bytes it stands for. -/
inductive LenientInside : List Char → List UInt8 → Prop
  /-- Nothing. -/
  | nil : LenientInside [] []
  /-- A piece in front. -/
  | cons {piece rest : List Char} {bytes others : List UInt8} :
    LenientPiece piece bytes → LenientInside rest others →
    LenientInside (piece ++ rest) (bytes ++ others)

section Pieces

variable {here : Place} {piece body cs taken rest : List Char} {bytes : List UInt8}

/-! ### Pieces are read -/

/-- Two hexadecimal digits are the escape of a byte. -/
theorem readEscape_byte {high low : Char} {h l : Nat} (hhigh : Text.hexValue? high = some h)
    (hlow : Text.hexValue? low = some l) :
    readEscape (high :: low :: rest) = ⟨.ok [UInt8.ofNat (h * 16 + l)], [high, low], rest⟩ := by
  have hdigit : Text.isHexDigit high = true := by rw [Text.isHexDigit, hhigh, Option.isSome_some]
  have hne (d : Char) (hd : Text.isHexDigit d = false) : high ≠ d := ne_of_digit hdigit hd
  have hletter : escapedLetter? high = none := by
    unfold escapedLetter?
    split
    all_goals first | rfl | exact absurd rfl (hne _ (by decide))
  have hread : readEscape (high :: low :: rest) = readByte high (low :: rest) := by
    simp only [readEscape, hletter]
    split
    · exact absurd rfl (hne 'u' (by decide))
    · rfl
  rw [hread, readByte, hhigh, hlow]

/-- A numeral of a code point in braces is the escape of its character. -/
theorem readEscape_codePoint {numeral : List Char} {c : Char} (hbrace : '}' ∉ numeral)
    (hc : Text.HexNumeral.codePoint? numeral = some c) :
    readEscape ('u' :: '{' :: numeral ++ '}' :: rest) =
      ⟨.ok (String.utf8EncodeChar c), 'u' :: '{' :: numeral ++ ['}'], rest⟩ := by
  have hinside : ∀ d ∈ numeral, decide (d ≠ '}') = true := fun d hd ↦
    decide_eq_true fun heq ↦ hbrace (heq ▸ hd)
  have hclose : ∀ d ∈ ('}' :: rest).head?, decide (d ≠ '}') = false := by simp
  obtain ⟨htake, hdrop⟩ := takeWhile_append_of_head? hinside hclose
  have hbytes : codePointBytes numeral = .ok (String.utf8EncodeChar c) := by
    rw [codePointBytes, hc]
  have hread : readCodePoint (numeral ++ '}' :: rest) =
      ⟨.ok (String.utf8EncodeChar c), numeral ++ ['}'], rest⟩ := by
    simp only [readCodePoint, htake, hdrop, hbytes]
  have hescape : readEscape ('u' :: '{' :: numeral ++ '}' :: rest) =
      { readCodePoint (numeral ++ '}' :: rest) with
        taken := 'u' :: '{' :: (readCodePoint (numeral ++ '}' :: rest)).taken } := rfl
  rw [hescape, hread]
  rfl

/-- A piece is read as the bytes it stands for, and reading goes on right behind it. -/
theorem readString_of_lenientPiece (h : LenientPiece piece bytes)
    (hhere : here.rest = piece ++ rest) :
    readString here = (readString (here.past piece rest)).cons (.ok bytes) here.position := by
  have hcodePoint {numeral : List Char} {c : Char} (hbrace : '}' ∉ numeral)
      (hdenotes : Denotes numeral c.toNat)
      (hhere : here.rest = '\\' :: 'u' :: '{' :: numeral ++ ['}'] ++ rest) :
      readString here = (readString (here.past ('\\' :: 'u' :: '{' :: numeral ++ ['}']) rest)).cons
        (.ok (String.utf8EncodeChar c)) here.position := by
    apply readString_past_escape ('u' :: '{' :: numeral ++ ['}']) hhere
    simpa using readEscape_codePoint hbrace (codePoint?_eq_some_iff.mpr hdenotes)
  cases h with
  | codePoint hbrace hdenotes => exact hcodePoint hbrace hdenotes hhere
  | plain hpiece =>
    cases hpiece with
    | char hquote hbackslash hfeed => exact readString_of_char hhere hquote hfeed hbackslash
    | @letter letter meant hletter =>
      apply readString_past_escape [letter] hhere
      simp only [letterEscapes, List.mem_cons, Prod.mk.injEq, List.not_mem_nil, or_false] at hletter
      rcases hletter with ⟨rfl, rfl⟩ | ⟨rfl, rfl⟩ | ⟨rfl, rfl⟩ | ⟨rfl, rfl⟩ | ⟨rfl, rfl⟩ |
        ⟨rfl, rfl⟩ <;> rfl
    | @byte high low _ _ hhigh hlow =>
      exact readString_past_escape [high, low] hhere (readEscape_byte hhigh hlow)
    | @codePoint digits _ hne hdigits hnumber =>
      have hbrace : '}' ∉ digits := fun hmem ↦ absurd (hdigits '}' hmem) (by decide)
      exact hcodePoint hbrace ((denotes_toNat_iff hne hdigits).mpr hnumber) hhere

/-- The inside of a literal is read as the bytes it stands for, up to right behind the mark that
closes it. -/
theorem readString_of_lenientInside (h : LenientInside body bytes)
    (hhere : here.rest = body ++ '"' :: rest) :
    readString here = ⟨bytes, [], true, here.past (body ++ ['"']) rest⟩ := by
  induction h generalizing here with
  | nil => exact readString_of_quote hhere
  | @cons piece others _ _ hpiece _ ih =>
    rw [List.append_assoc] at hhere
    have hbehind : (here.past piece (others ++ '"' :: rest)).rest = others ++ '"' :: rest := rfl
    rw [readString_of_lenientPiece hpiece hhere, ih hbehind, List.append_assoc, Place.past,
      Place.past, Place.past, Position.afterAll_append _ piece]
    rfl

/-! ### What is read is made up of pieces -/

/-- An escape of a byte without a fault is two digits. -/
theorem digits_of_readByte {high : Char} (h : readByte high cs = ⟨.ok bytes, taken, rest⟩) :
    ∃ low upper lower, taken = [high, low] ∧ Text.hexValue? high = some upper ∧
      Text.hexValue? low = some lower ∧ bytes = [UInt8.ofNat (upper * 16 + lower)] := by
  unfold readByte at h
  split at h
  · rename_i low behind
    split at h
    · rename_i upper lower hupper hlower
      cases h
      exact ⟨low, upper, lower, rfl, hupper, hlower, rfl⟩
    · cases h
  · cases h

/-- An escape of a letter is one of the grammar. -/
theorem mem_letterEscapes_of_escapedLetter? {letter meant : Char}
    (h : escapedLetter? letter = some meant) : (letter, meant) ∈ letterEscapes := by
  unfold escapedLetter? at h
  split at h <;> cases h <;> decide

/-- Assumes: an escape of a code point without a fault, with something behind it. It is a piece, up
to the closing brace. -/
theorem lenientPiece_of_readCodePoint (hbytes : (readCodePoint body).bytes = .ok bytes)
    (hrest : (readCodePoint body).rest ≠ []) :
    LenientPiece ('\\' :: 'u' :: '{' :: (readCodePoint body).taken) bytes := by
  cases hdrop : body.dropWhile (· ≠ '}') with
  | nil =>
    rw [readCodePoint, hdrop] at hrest
    exact absurd rfl hrest
  | cons brace others =>
    have hbrace : brace = '}' := by
      have hhalt := List.head?_dropWhile_not (· ≠ '}') body
      rw [hdrop] at hhalt
      simpa using hhalt
    subst hbrace
    have hinside : '}' ∉ body.takeWhile (· ≠ '}') := fun hmem ↦ by
      have hkept := List.all_eq_true.mp List.all_takeWhile _ hmem
      simp at hkept
    simp only [readCodePoint, hdrop] at hbytes ⊢
    unfold codePointBytes at hbytes
    split at hbytes
    · rename_i c hc
      cases hbytes
      exact .codePoint hinside (codePoint?_eq_some_iff.mp hc)
    · cases hbytes

/-- Assumes: an escape without a fault, with something behind it. With its backslash it is a
piece. -/
theorem lenientPiece_of_readEscape (h : readEscape cs = ⟨.ok bytes, taken, rest⟩)
    (hrest : rest ≠ []) : LenientPiece ('\\' :: taken) bytes := by
  unfold readEscape at h
  split at h
  · cases h
  rename_i c behind
  split at h
  · rename_i meant hletter
    cases h
    exact .plain (.letter (mem_letterEscapes_of_escapedLetter? hletter))
  split at h
  · obtain ⟨hbytes, rfl, rfl⟩ := Escape.mk.inj h
    exact lenientPiece_of_readCodePoint hbytes hrest
  · obtain ⟨low, upper, lower, rfl, hupper, hlower, rfl⟩ := digits_of_readByte h
    exact .plain (.byte hupper hlower)

/-- Assumes: a string literal that is closed and has no fault. Up to the closing mark it is made up
of pieces. -/
theorem lenientInside_of_readString (hfaults : (readString here).faults = [])
    (hclosed : (readString here).isClosed = true) :
    ∃ body, here.rest = body ++ '"' :: (readString here).stop.rest ∧
      LenientInside body (readString here).bytes := by
  fun_induction readString here with
  | case1 | case3 => cases hclosed
  | case2 here rest hrest => exact ⟨[], hrest, .nil⟩
  | case4 here rest hrest escape ih =>
    cases hbytes : escape.bytes with
    | error fault =>
      rw [hbytes] at hfaults
      cases hfaults
    | ok bytes =>
      rw [hbytes] at hfaults hclosed
      obtain ⟨body, hbody, hinside⟩ := ih hfaults hclosed
      have hescape : readEscape rest = ⟨.ok bytes, escape.taken, escape.rest⟩ := by
        rw [← hbytes]
      have hwhole : escape.rest = body ++ '"' :: _ := hbody
      have hpiece : LenientPiece ('\\' :: escape.taken) bytes := by
        apply lenientPiece_of_readEscape hescape
        rw [hwhole]
        simp
      refine ⟨('\\' :: escape.taken) ++ body, ?_, .cons hpiece hinside⟩
      rw [hrest, ← taken_append_rest_readEscape rest, List.append_assoc]
      exact congrArg (fun behind ↦ '\\' :: (escape.taken ++ behind)) hwhole
  | case5 here c rest hquote hfeed hbackslash hrest ih =>
    obtain ⟨body, hbody, hinside⟩ := ih hfaults hclosed
    have hwhole : rest = body ++ '"' :: (readString (here.past [c] rest)).stop.rest := hbody
    refine ⟨[c] ++ body, hrest.trans (congrArg (c :: ·) hwhole), .cons (.plain ?_) hinside⟩
    exact .char hquote hbackslash hfeed

/-- A text between quotation marks is accepted for another one if and only if it is made up of
pieces that stand for the bytes of that one. -/
theorem isLiteralBody_iff_lenientInside {text : String} :
    IsLiteralBody body text ↔ LenientInside body (text.toList.flatMap String.utf8EncodeChar) := by
  constructor
  · intro h
    have hplace : (Place.mk .first (body ++ ['"'])).rest = body ++ '"' :: [] := rfl
    obtain ⟨stop, hstop, hread⟩ := h hplace
    obtain ⟨inside, hinside, hpieces⟩ := lenientInside_of_readString
      (by rw [hread] : (readString ⟨.first, body ++ ['"']⟩).faults = []) (by rw [hread])
    rw [hread] at hinside hpieces
    rw [hstop] at hinside
    have hsame : body = inside := List.append_cancel_right hinside
    exact hsame ▸ hpieces
  · exact fun h here rest hhere ↦ ⟨_, rfl, readString_of_lenientInside h hhere⟩

/-! ### Pieces of the grammar -/

/-- Pieces of the grammar are accepted. -/
theorem lenientInside_of_stringInside (h : StringInside body bytes) : LenientInside body bytes := by
  induction h with
  | nil => exact .nil
  | cons hpiece _ ih => exact .cons (.plain hpiece) ih

/-- The code points of a piece of the grammar and of what stands behind it, and those of the piece,
which are hexadecimal digits alone. -/
theorem codePointTexts_append_of_stringPiece (h : StringPiece piece bytes) (rest : List Char) :
    codePointTexts (piece ++ rest) = codePointTexts piece ++ codePointTexts rest ∧
      ∀ digits ∈ codePointTexts piece, ∀ c ∈ digits, Text.isHexDigit c = true := by
  cases h with
  | char _ hbackslash _ => simp [codePointTexts_of_ne hbackslash, codePointTexts_nil]
  | @letter letter _ hletter =>
    have hne : letter ≠ 'u' := by
      rintro rfl
      simp [letterEscapes] at hletter
    simp [codePointTexts_letter hne, codePointTexts_nil]
  | @byte high low h l hupper hlower =>
    have hhigh : Text.isHexDigit high = true := by rw [Text.isHexDigit, hupper, Option.isSome_some]
    have hlow : Text.isHexDigit low = true := by rw [Text.isHexDigit, hlower, Option.isSome_some]
    simp [codePointTexts_letter (ne_of_digit hhigh (by decide)),
      codePointTexts_of_ne (ne_of_digit hlow (by decide)), codePointTexts_nil]
  | @codePoint digits _ _ hdigits _ =>
    have hbrace : '}' ∉ digits := fun hmem ↦ absurd (hdigits _ hmem) (by decide)
    have hpiece := codePointTexts_codePoint hbrace []
    have hwhole := codePointTexts_codePoint hbrace rest
    rw [codePointTexts_nil] at hpiece
    simpa [hpiece, hwhole] using hdigits

/-- The code points of a piece and of what stands behind it. -/
theorem codePointTexts_append_of_lenientPiece (h : LenientPiece piece bytes) (rest : List Char) :
    codePointTexts (piece ++ rest) = codePointTexts piece ++ codePointTexts rest := by
  cases h with
  | plain hpiece => exact (codePointTexts_append_of_stringPiece hpiece rest).1
  | @codePoint numeral _ hbrace _ =>
    have hpiece := codePointTexts_codePoint hbrace []
    have hwhole := codePointTexts_codePoint hbrace rest
    rw [codePointTexts_nil] at hpiece
    simp [hpiece, hwhole]

/-- The code points of a literal and of what stands behind it. -/
theorem codePointTexts_append_of_lenientInside (h : LenientInside body bytes) (rest : List Char) :
    codePointTexts (body ++ rest) = codePointTexts body ++ codePointTexts rest := by
  induction h with
  | nil => rw [codePointTexts_nil, List.nil_append, List.nil_append]
  | @cons piece others _ _ hpiece _ ih =>
    rw [List.append_assoc, codePointTexts_append_of_lenientPiece hpiece, ih,
      codePointTexts_append_of_lenientPiece hpiece, List.append_assoc]

/-- A piece with nothing but hexadecimal digits in braces is one of the grammar. -/
theorem stringPiece_of_lenientPiece (h : LenientPiece piece bytes)
    (hdigits : ∀ digits ∈ codePointTexts piece, ∀ c ∈ digits, Text.isHexDigit c = true) :
    StringPiece piece bytes := by
  cases h with
  | plain hpiece => exact hpiece
  | @codePoint numeral c hbrace hdenotes =>
    have hplain : ∀ c ∈ numeral, Text.isHexDigit c = true := by
      refine hdigits numeral ?_
      have htexts := codePointTexts_codePoint hbrace []
      exact htexts ▸ List.mem_cons_self
    have hne : numeral ≠ [] := by
      rintro rfl
      exact not_denotes_nil _ hdenotes
    exact .codePoint hne hplain ((denotes_toNat_iff hne hplain).mp hdenotes)

/-- What is accepted is a literal of the grammar if and only if there are hexadecimal digits alone
in the braces of its code points. -/
theorem stringInside_iff : StringInside body bytes ↔ LenientInside body bytes ∧
    ∀ digits ∈ codePointTexts body, ∀ c ∈ digits, Text.isHexDigit c = true := by
  constructor
  · intro h
    refine ⟨lenientInside_of_stringInside h, ?_⟩
    induction h with
    | nil => simp [codePointTexts_nil]
    | @cons piece rest _ _ hpiece _ ih =>
      obtain ⟨hsplit, hdigits⟩ := codePointTexts_append_of_stringPiece hpiece rest
      rw [hsplit]
      exact List.forall_mem_append.mpr ⟨hdigits, ih⟩
  · rintro ⟨h, hdigits⟩
    induction h with
    | nil => exact .nil
    | @cons piece rest _ _ hpiece _ ih =>
      rw [codePointTexts_append_of_lenientPiece hpiece, List.forall_mem_append] at hdigits
      exact .cons (stringPiece_of_lenientPiece hpiece hdigits.1) (ih hdigits.2)

/-- Assumes: a text that denotes another one between quotation marks, in which code points are plain
digits. It is the inside of a literal of the grammar. -/
theorem stringInside_of_isLiteralBody {text : String} (h : IsLiteralBody body text)
    (hdigits : ∀ digits ∈ codePointTexts (body ++ ['"']), ∀ c ∈ digits,
      Text.isHexDigit c = true) : ∃ bytes, StringInside body bytes := by
  have hpieces := isLiteralBody_iff_lenientInside.mp h
  rw [codePointTexts_append_of_lenientInside hpieces] at hdigits
  exact ⟨_, stringInside_iff.mpr ⟨hpieces, (List.forall_mem_append.mp hdigits).1⟩⟩

end Pieces

end Lexeme

end WatTypes
