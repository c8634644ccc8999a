import WatTypes.Proofs.Lexical.Escapes

/-!
# Written lexemes are read

A string literal of the grammar is accepted as the text whose bytes its pieces stand for
(`isLiteralBody_of_stringInside`). With the languages of number literals it follows that whatever
may be written for a lexeme is read as this lexeme (`spells_of_written`).
-/

set_option autoImplicit false
set_option relaxedAutoImplicit false

namespace WatTypes

namespace Lexeme

open Syntax

/-! ### String literals -/

variable {inside : List Char} {bytes : List UInt8}

/-- Bytes that are a text are the UTF-8 form of the text. -/
theorem eq_flatMap_of_fromUTF8? {text : String}
    (h : String.fromUTF8? ⟨bytes.toArray⟩ = some text) :
    bytes = text.toList.flatMap String.utf8EncodeChar := by
  unfold String.fromUTF8? at h
  split at h
  · cases h
    rename_i hvalid
    have hbytes := @String.utf8Encode_toList (String.fromUTF8 ⟨bytes.toArray⟩ hvalid)
    rw [List.utf8Encode] at hbytes
    have hlists := congrArg (fun found : ByteArray ↦ found.data.toList) hbytes
    rw [List.toList_data_toByteArray] at hlists
    exact hlists.symm
  · cases h

/-- The inside of a literal denotes the text whose bytes it stands for. -/
theorem isLiteralBody_of_stringInside {text : String} (h : StringInside inside bytes)
    (htext : String.fromUTF8? ⟨bytes.toArray⟩ = some text) : IsLiteralBody inside text := by
  rw [isLiteralBody_iff_lenientInside, ← eq_flatMap_of_fromUTF8? htext]
  exact lenientInside_of_stringInside h

/-! ### Lexemes -/

/-- A word without a sigil that is a number and no integer is that number. -/
theorem ofWord_of_isFloat {c : Char} {rest : List Char} (hdollar : c ≠ '$') (hat : c ≠ '@')
    (hinteger : Number.isInteger (c :: rest) = false) (h : Number.isFloat (c :: rest) = true) :
    ofWord (c :: rest) = .ok (.float (String.ofList (c :: rest))) := by
  rw [ofWord, if_neg (by simp [hinteger]), if_pos h]
  · exact fun hc _ ↦ hdollar hc
  · exact fun hc _ ↦ hat hc
  · exact hdollar
  · exact hat

/-- A word that starts with a lower-case letter and is no number is a reserved word. -/
theorem ofWord_of_letter {c : Char} {rest : List Char} (hletter : 'a' ≤ c ∧ c ≤ 'z')
    (hinteger : Number.isInteger (c :: rest) = false)
    (hfloat : Number.isFloat (c :: rest) = false) :
    ofWord (c :: rest) = .ok (.keyword (String.ofList (c :: rest))) := by
  have hdollar : c ≠ '$' := by
    rintro rfl
    exact absurd hletter.1 (by decide)
  have hat : c ≠ '@' := by
    rintro rfl
    exact absurd hletter.1 (by decide)
  rw [ofWord, if_neg (by simp [hinteger]), if_neg (by simp [hfloat]), if_pos hletter]
  · exact fun hc _ ↦ hdollar hc
  · exact fun hc _ ↦ hat hc
  · exact hdollar
  · exact hat

/-- Whatever may be written for a lexeme is read as this lexeme. -/
theorem spells_of_written {written : List Char} {lexeme : Lexeme} (h : Written written lexeme) :
    Spells written lexeme := by
  cases h with
  | opening => exact .opening
  | closing => exact .closing
  | @id name hne hname =>
    refine .word (List.forall_mem_cons.mpr ⟨by decide, hname⟩) ?_
    cases name with
    | nil => exact absurd rfl hne
    | cons c rest => rfl
  | @annotationHead name hne hname =>
    refine .word (List.forall_mem_cons.mpr ⟨by decide, hname⟩) ?_
    cases name with
    | nil => exact absurd rfl hne
    | cons c rest => rfl
  | integer hinteger =>
    have hfloat := mem_float_of_mem_integer hinteger
    obtain ⟨c, rest, rfl⟩ := List.exists_cons_of_ne_nil (ne_nil_of_mem_float hfloat)
    have hchars := isOver_float _ hfloat
    obtain ⟨-, hdollar, hat⟩ := hchars c List.mem_cons_self
    exact .word (fun d hd ↦ (hchars d hd).1)
      (ofWord_of_isInteger hdollar hat (isInteger_iff.mpr hinteger))
  | float hfloat hinteger =>
    obtain ⟨c, rest, rfl⟩ := List.exists_cons_of_ne_nil (ne_nil_of_mem_float hfloat)
    have hchars := isOver_float _ hfloat
    obtain ⟨-, hdollar, hat⟩ := hchars c List.mem_cons_self
    have hnot : Number.isInteger (c :: rest) = false :=
      Bool.eq_false_iff.mpr fun h ↦ hinteger (isInteger_iff.mp h)
    exact .word (fun d hd ↦ (hchars d hd).1)
      (ofWord_of_isFloat hdollar hat hnot (isFloat_iff.mpr hfloat))
  | @keyword c rest hletter hchars hfloat =>
    have hnot : Number.isFloat (c :: rest) = false :=
      Bool.eq_false_iff.mpr fun h ↦ hfloat (isFloat_iff.mp h)
    have hinteger : Number.isInteger (c :: rest) = false :=
      Bool.eq_false_iff.mpr fun h ↦ hfloat (mem_float_of_mem_integer (isInteger_iff.mp h))
    exact .word hchars (ofWord_of_letter hletter hinteger hnot)
  | string hinside htext => exact .string (isLiteralBody_of_stringInside hinside htext)

end Lexeme

end WatTypes
