import WatTypes.Proofs.Layout
import WatTypes.Proofs.Lexical.Magnitude
import WatTypes.Tree.WellFormed

/-!
# Canonical spellings are read back

A string literal denotes the text that it was written for, whatever its characters
(`spells_string`); an identifier that is a word is read as itself, and so is the decimal numeral of
a natural number (`spells_integer`), whose value is that number (`unsigned32?_toString`).
-/

set_option autoImplicit false
set_option relaxedAutoImplicit false

namespace WatTypes.Lexeme

/-! ### Strings -/

section Strings

variable {here : Place} {c : Char} {rest : List Char}

/-- A quotation mark closes a literal. -/
theorem readString_of_quote (h : here.rest = '"' :: rest) :
    readString here = ⟨[], [], true, here.past ['"'] rest⟩ := by
  rw [readString]
  split <;> simp_all

/-- A backslash starts an escape. -/
theorem readString_of_backslash (h : here.rest = '\\' :: rest) :
    readString here =
      (readString (here.past ('\\' :: (readEscape rest).taken) (readEscape rest).rest)).cons
        (readEscape rest).bytes here.position := by
  rw [readString]
  split <;> simp_all

/-- Any other character that does not end the line stands for itself. -/
theorem readString_of_char (h : here.rest = c :: rest) (hquote : c ≠ '"') (hfeed : c ≠ '\n')
    (hbackslash : c ≠ '\\') :
    readString here = (readString (here.past [c] rest)).cons (.ok (String.utf8EncodeChar c))
      here.position := by
  have hquote := hquote.symm
  have hfeed := hfeed.symm
  have hbackslash := hbackslash.symm
  rw [readString]
  split <;> simp_all

/-- A hexadecimal digit starts no other escape than that of a byte. -/
theorem readEscape_hexDigit {high : Nat} (h : high < 16) :
    readEscape (Text.hexDigit high :: rest) = readByte (Text.hexDigit high) rest := by
  have hall : ∀ digit : Fin 16, escapedLetter? (Text.hexDigit digit) = none ∧
      Text.hexDigit digit ≠ 'u' := by decide
  obtain ⟨hletter, hu⟩ := hall ⟨high, h⟩
  simp only at hletter hu
  simp only [readEscape, hletter]
  split
  · contradiction
  · rfl

/-- Two hexadecimal digits are the escape of a byte. -/
theorem readEscape_hexDigits {byte : Nat} (h : byte < 256) :
    readEscape (Text.hexDigits 2 byte ++ rest) =
      ⟨.ok [UInt8.ofNat byte], Text.hexDigits 2 byte, rest⟩ := by
  have hdigits : Text.hexDigits 2 byte =
      [Text.hexDigit (byte / 16), Text.hexDigit (byte % 16)] := by
    have hhigh : byte / 16 % 16 = byte / 16 := by omega
    simp [Text.hexDigits, hhigh]
  have hvalue : byte / 16 * 16 + byte % 16 = byte := by omega
  rw [hdigits, List.cons_append, readEscape_hexDigit (by omega), List.cons_append, readByte,
    Text.hexValue?_hexDigit (by omega), Text.hexValue?_hexDigit (by omega)]
  simp only [hvalue, List.nil_append]

/-- A character of ASCII is its own byte. -/
theorem utf8EncodeChar_of_lt (h : c.toNat < 0x80) :
    String.utf8EncodeChar c = [UInt8.ofNat c.toNat] := by
  have hsmall : c.val.toNat ≤ 0x7f := Nat.le_of_lt_succ h
  rw [String.utf8EncodeChar, if_pos hsmall]
  rfl

/-- Behind an escape without a fault, reading a literal goes on with its bytes. -/
theorem readString_past_escape (escaped : List Char) {bytes : List UInt8}
    (h : here.rest = '\\' :: (escaped ++ rest))
    (hescape : readEscape (escaped ++ rest) = ⟨.ok bytes, escaped, rest⟩) :
    readString here =
      (readString (here.past ('\\' :: escaped) rest)).cons (.ok bytes) here.position := by
  rw [readString_of_backslash h, hescape]

/-- An escape in a literal is read as the bytes it stands for. -/
theorem readString_of_escape (escaped : List Char) {bytes : List UInt8}
    (h : here.rest = '\\' :: (escaped ++ rest))
    (hescape : readEscape (escaped ++ rest) = ⟨.ok bytes, escaped, rest⟩) :
    ∃ stop : Place, stop.rest = rest ∧
      readString here = (readString stop).cons (.ok bytes) here.position :=
  ⟨here.past ('\\' :: escaped) rest, rfl, readString_past_escape escaped h hescape⟩

/-- An escaped or plain character of a literal is read as the character. -/
theorem readString_of_literalChar (h : here.rest = literalChar c ++ rest) :
    ∃ stop : Place, stop.rest = rest ∧
      readString here = (readString stop).cons (.ok (String.utf8EncodeChar c)) here.position := by
  rw [literalChar] at h
  split at h
  · rename_i hc
    refine readString_of_escape [c] h ?_
    rcases hc with rfl | rfl <;> rfl
  rename_i hplain
  split at h
  · rename_i hc
    subst hc
    exact readString_of_escape ['n'] h rfl
  rename_i hfeed
  split at h
  · rename_i hc
    subst hc
    exact readString_of_escape ['t'] h rfl
  split at h
  · rename_i hcontrol
    have hsmall : c.toNat < 0x80 := by omega
    refine readString_of_escape _ h ?_
    rw [readEscape_hexDigits (by omega), utf8EncodeChar_of_lt hsmall]
  · refine ⟨here.past [c] rest, rfl, readString_of_char h ?_ hfeed ?_⟩
    · exact fun hquote ↦ hplain (.inl hquote)
    · exact fun hbackslash ↦ hplain (.inr hbackslash)

/-- The escaped characters of a text denote it between quotation marks. -/
theorem isLiteralBody_literalChar (text : String) :
    IsLiteralBody (text.toList.flatMap literalChar) text := by
  intro here rest
  induction text.toList generalizing here with
  | nil =>
    intro h
    exact ⟨here.past ['"'] rest, rfl, readString_of_quote h⟩
  | cons c cs ih =>
    intro h
    rw [List.flatMap_cons, List.append_assoc] at h
    obtain ⟨middle, hmiddle, hfirst⟩ := readString_of_literalChar h
    obtain ⟨stop, hstop, hothers⟩ := ih hmiddle
    refine ⟨stop, hstop, ?_⟩
    rw [hfirst, hothers, List.flatMap_cons]
    rfl

/-- The literal of a text is read as that text. -/
theorem spells_string (text : String) :
    Spells (Lexeme.string text).spelling.toList (.string text) := by
  rw [spelling, stringLiteral, String.toList_ofList]
  exact .string (isLiteralBody_literalChar text)

end Strings

/-! ### Words -/

/-- An identifier that is a word is read as itself. -/
theorem spells_id {name : String} (h : IsWord name) :
    Spells (Lexeme.id name).spelling.toList (.id name) := by
  obtain ⟨hempty, hchars⟩ := h
  have hspelling : (Lexeme.id name).spelling.toList = '$' :: name.toList := by
    rw [spelling, String.toList_append]
    rfl
  rw [hspelling]
  refine .word (fun c hc ↦ ?_) ?_
  · rcases List.mem_cons.mp hc with rfl | hname
    · decide
    · exact hchars c hname
  · cases hlist : name.toList with
    | nil => exact absurd (String.toList_eq_nil_iff.mp hlist) hempty
    | cons c cs =>
      rw [← String.ofList_toList (s := name), hlist]
      rfl

/-! ### Integers -/

namespace Number

variable {cs : List Char}

/-- A digit is no other character. -/
theorem ne_of_isDigit {c d : Char} (hc : c.isDigit = true) (hd : d.isDigit = false) : c ≠ d := by
  rintro rfl
  rw [hc] at hd
  cases hd

/-- Digits make up a run of digits. -/
theorem isDigits_of_forall (hne : cs ≠ []) (h : ∀ c ∈ cs, c.isDigit = true) :
    isDigits Char.isDigit cs = true := by
  fun_induction isDigits Char.isDigit cs with
  | case1 => exact absurd rfl hne
  | case2 c => exact h c List.mem_cons_self
  | case3 c rest ih =>
    have hlow := h '_' (by simp)
    cases hlow
  | case4 c rest hlow hrest ih =>
    rw [h c List.mem_cons_self, ih hlow fun d hd ↦ h d (List.mem_cons_of_mem c hd)]
    rfl

/-- Digits are an integer literal. -/
theorem isInteger_of_forall (hne : cs ≠ []) (h : ∀ c ∈ cs, c.isDigit = true) :
    isInteger cs = true := by
  have hsign : withoutSign cs = cs := by
    unfold withoutSign
    split
    · exact absurd rfl (ne_of_isDigit (h '+' List.mem_cons_self) (by decide))
    · exact absurd rfl (ne_of_isDigit (h '-' List.mem_cons_self) (by decide))
    · rfl
  rw [isInteger, hsign]
  split
  · have hx := h 'x' (by simp)
    cases hx
  · exact isDigits_of_forall hne h

/-- The number that decimal digits denote is the one that they are the numeral of. -/
theorem ofDigits_eq_ofDigitChars (h : ∀ c ∈ cs, c.isDigit = true) (value : Nat) :
    cs.foldl (fun value c ↦ value * 10 + Text.digitValue c) value =
      Nat.ofDigitChars 10 cs value := by
  induction cs generalizing value with
  | nil => rfl
  | cons c rest ih =>
    have hc := h c List.mem_cons_self
    have hdigit : '0' ≤ c ∧ c ≤ '9' := by
      simp only [Char.isDigit, Bool.and_eq_true, decide_eq_true_eq] at hc
      exact hc
    rw [List.foldl_cons, ih fun d hd ↦ h d (List.mem_cons_of_mem c hd), Nat.ofDigitChars_cons,
      Text.digitValue, Text.hexValue?, if_pos hdigit, Option.getD_some, Nat.mul_comm]

/-- The numeral of a number denotes that number. -/
theorem unsignedDenotes_toString (value : Nat) :
    Syntax.UnsignedDenotes (toString value).toList value := by
  have hdigits : (toString value).toList = Nat.toDigits 10 value := Nat.toList_repr
  have hall (c : Char) (hc : c ∈ Nat.toDigits 10 value) : c.isDigit = true :=
    Nat.isDigit_of_mem_toDigits (by decide) (by decide) hc
  have hrun : Nat.toDigits 10 value ∈ Syntax.digits Char.isDigit :=
    (Syntax.isDigits_iff (by decide)).mp (isDigits_of_forall Nat.toDigits_ne_nil hall)
  have hplain : (Nat.toDigits 10 value).filter (· ≠ '_') = Nat.toDigits 10 value :=
    List.filter_eq_self.mpr fun c hc ↦ by simpa using ne_of_isDigit (hall c hc) (by decide)
  have hvalue : Syntax.placeValue 10 (Nat.toDigits 10 value) = value := by
    rw [Syntax.placeValue, hplain, ← Text.ofDigits_eq, Text.ofDigits,
      ofDigits_eq_ofDigitChars hall, Nat.ofDigitChars_ten_toDigits]
  have hdenotes := Syntax.UnsignedDenotes.decimal hrun
  rwa [hvalue, ← hdigits] at hdenotes

/-- The numeral of a number below the bound of 32 bits is read as that number. -/
theorem unsigned32?_toString {value : Nat} (h : value < 4294967296) :
    unsigned32? (toString value) = some value := by
  rw [Syntax.unsigned32?_of_unsignedDenotes (unsignedDenotes_toString value),
    if_pos (Nat.le_of_lt_succ h)]

end Number

/-- A word without a sigil that is an integer literal is that integer. -/
theorem ofWord_of_isInteger {c : Char} {rest : List Char} (hdollar : c ≠ '$') (hat : c ≠ '@')
    (h : Number.isInteger (c :: rest) = true) :
    ofWord (c :: rest) = .ok (.integer (String.ofList (c :: rest))) := by
  rw [ofWord, if_pos h]
  · exact fun hc _ ↦ hdollar hc
  · exact fun hc _ ↦ hat hc
  · exact hdollar
  · exact hat

/-- The numeral of a natural number is read as an integer. -/
theorem spells_integer (value : Nat) :
    Spells (Lexeme.integer (toString value)).spelling.toList (.integer (toString value)) := by
  have hall (c : Char) (hc : c ∈ Nat.toDigits 10 value) : c.isDigit = true :=
    Nat.isDigit_of_mem_toDigits (by decide) (by decide) hc
  have hinteger := Number.isInteger_of_forall Nat.toDigits_ne_nil hall
  rw [spelling, Nat.toString_eq_ofList_toDigits, String.toList_ofList]
  cases hdigits : Nat.toDigits 10 value with
  | nil => exact absurd hdigits Nat.toDigits_ne_nil
  | cons c rest =>
    rw [hdigits] at hall hinteger
    have hc := hall c List.mem_cons_self
    refine .word (fun d hd ↦ by simp [isIdChar, Char.isAlphanum, hall d hd])
      (ofWord_of_isInteger ?_ ?_ hinteger)
    · exact Number.ne_of_isDigit hc (by decide)
    · exact Number.ne_of_isDigit hc (by decide)

end WatTypes.Lexeme
