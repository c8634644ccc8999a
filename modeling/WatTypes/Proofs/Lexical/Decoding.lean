import WatTypes.Proofs.Lexical.Literal

/-!
# String literals are decoded as a whole

The pieces of a string literal stand for bytes, and only all of them together may be the UTF-8 form
of a text: a character can be made of several escapes, and be cut by what stands between them.
Reading takes every literal of the grammar up to the mark that closes it, and gives one token where
its bytes encode a text, and one fault at its opening mark where they encode none
(`events_of_stringInside`); it goes on right behind the literal (`readFrom_of_stringInside`).
-/

set_option autoImplicit false
set_option relaxedAutoImplicit false

namespace WatTypes

namespace Lexeme

open Syntax

variable {inside rest : List Char} {bytes : List UInt8}

/-- Bytes are the UTF-8 form of a text. -/
def Encode (bytes : List UInt8) (text : String) : Prop :=
  bytes = text.toList.flatMap String.utf8EncodeChar

instance (bytes : List UInt8) (text : String) : Decidable (Encode bytes text) :=
  inferInstanceAs (Decidable (bytes = _))

/-- Bytes are decoded as the text that they encode, and as nothing else. -/
theorem fromUTF8?_eq_some_iff {text : String} :
    String.fromUTF8? ⟨bytes.toArray⟩ = some text ↔ Encode bytes text := by
  constructor
  · exact eq_flatMap_of_fromUTF8?
  · rintro rfl
    exact fromUTF8?_utf8EncodeChar text

/-- Bytes that encode no text are not decoded. -/
theorem fromUTF8?_eq_none_of_not_encode (h : ∀ text, ¬Encode bytes text) :
    String.fromUTF8? ⟨bytes.toArray⟩ = none :=
  Option.eq_none_iff_forall_ne_some.mpr fun text htext ↦ h text (fromUTF8?_eq_some_iff.mp htext)

/-- What is read of a literal: a token of the text that its bytes encode, or a fault at its opening
mark. -/
theorem events_of_stringInside (h : StringInside inside bytes) (file : String) (start : Position)
    {here : Place} (hhere : here.rest = inside ++ '"' :: rest) :
    (∀ text, Encode bytes text → (readString here).events file start = [.token ⟨.string text,
      .upTo file start (here.past (inside ++ ['"']) rest).position⟩]) ∧
    ((∀ text, ¬Encode bytes text) →
      (readString here).events file start = [.fault .invalidUtf8 start]) := by
  rw [readString_of_lenientInside (lenientInside_of_stringInside h) hhere]
  constructor
  · intro text htext
    simp only [StringBody.events, fromUTF8?_eq_some_iff.mpr htext, if_true, List.nil_append]
  · intro hnone
    simp only [StringBody.events, fromUTF8?_eq_none_of_not_encode hnone, if_true, List.nil_append]

end Lexeme

namespace Scan

open Lexeme Syntax

/-- Assumes: at a place there stands a literal of the grammar between quotation marks. If the bytes
that its pieces stand for are the UTF-8 form of a text, then reading gives one token, of this text
and over the whole literal. If they are that of no text, it gives one fault, at the opening mark.
Either way it goes on right behind the closing mark. -/
theorem readFrom_of_stringInside (file : String) (limit : Option NestingLimit) (depth : Nat)
    (here : Place) (inside rest : List Char) (bytes : List UInt8) (h : StringInside inside bytes)
    (hhere : here.rest = '"' :: inside ++ '"' :: rest) :
    let stop := here.past ('"' :: inside ++ ['"']) rest
    (∀ text, Encode bytes text → readFrom file limit depth here =
      (readFrom file limit depth stop).prepend
        [.token ⟨.string text, .upTo file here.position stop.position⟩]) ∧
    ((∀ text, ¬Encode bytes text) →
      readFrom file limit depth here =
          (readFrom file limit depth stop).prepend [.fault .invalidUtf8 here.position] ∧
        Fault.diagnostic file .invalidUtf8 here.position =
          .ofSpan "E100" "string is not valid UTF-8" (.single file here.position) []) := by
  intro stop
  have hbehind : (here.past ['"'] (inside ++ '"' :: rest)).rest = inside ++ '"' :: rest := rfl
  have hstop : (readString (here.past ['"'] (inside ++ '"' :: rest))).stop = stop := by
    rw [readString_of_lenientInside (lenientInside_of_stringInside h) hbehind]
    rfl
  have hread : readFrom file limit depth here = (readFrom file limit depth stop).prepend
      ((readString (here.past ['"'] (inside ++ '"' :: rest))).events file here.position) := by
    have hopen : here.rest = '"' :: (inside ++ '"' :: rest) := hhere
    rw [readFrom_of_cons hopen, Stretch.read_string, hstop]
  obtain ⟨htoken, hfault⟩ := events_of_stringInside h file here.position hbehind
  constructor
  · intro text htext
    rw [hread, htoken text htext]
    rfl
  · intro hnone
    exact ⟨by rw [hread, hfault hnone], rfl⟩

theorem readFrom_of_stringInside_twoBytes :
    readFrom "" none 0 ⟨.first, ['"', '\\', 'c', '3', '\\', 'a', '9', '\\', '\\', 'n', '"']⟩ =
      ⟨[.token ⟨.string "é\\n", .upTo "" .first ⟨1, 12⟩⟩], ⟨1, 12⟩⟩ ∧
    readFrom "" none 0 ⟨.first, ['"', '\\', 'c', '3', 'x', '\\', 'a', '9', '"']⟩ =
      ⟨[.fault .invalidUtf8 .first], ⟨1, 10⟩⟩ := by
  have hbyte (high low : Char) (h l : Nat) (hhigh : Text.hexValue? high = some h)
      (hlow : Text.hexValue? low = some l) :
      StringPiece ['\\', high, low] [UInt8.ofNat (h * 16 + l)] := .byte hhigh hlow
  have hchar (c : Char) (hplain : c ≠ '"' ∧ c ≠ '\\' ∧ c ≠ '\n') :
      StringPiece [c] (String.utf8EncodeChar c) := .char hplain.1 hplain.2.1 hplain.2.2
  have hbackslash : StringPiece ['\\', '\\'] (String.utf8EncodeChar '\\') := .letter (by decide)
  have hwhole : StringInside ['\\', 'c', '3', '\\', 'a', '9', '\\', '\\', 'n']
      [0xc3, 0xa9, 0x5c, 0x6e] :=
    .cons (hbyte 'c' '3' 12 3 rfl rfl) (.cons (hbyte 'a' '9' 10 9 rfl rfl)
      (.cons hbackslash (.cons (hchar 'n' (by decide)) .nil)))
  have hcut : StringInside ['\\', 'c', '3', 'x', '\\', 'a', '9'] [0xc3, 0x78, 0xa9] :=
    .cons (hbyte 'c' '3' 12 3 rfl rfl) (.cons (hchar 'x' (by decide))
      (.cons (hbyte 'a' '9' 10 9 rfl rfl) .nil))
  have hnone (text : String) : ¬Encode [0xc3, 0x78, 0xa9] text := by
    intro htext
    have hdecoded := fromUTF8?_eq_some_iff.mpr htext
    have hrefused : String.fromUTF8? ⟨#[0xc3, 0x78, 0xa9]⟩ = none := by decide
    rw [hrefused] at hdecoded
    cases hdecoded
  obtain ⟨htoken, -⟩ := readFrom_of_stringInside "" none 0
    ⟨.first, ['"', '\\', 'c', '3', '\\', 'a', '9', '\\', '\\', 'n', '"']⟩ _ [] _ hwhole rfl
  obtain ⟨-, hfault⟩ := readFrom_of_stringInside "" none 0
    ⟨.first, ['"', '\\', 'c', '3', 'x', '\\', 'a', '9', '"']⟩ _ [] _ hcut rfl
  rw [htoken "é\\n" (by decide), (hfault hnone).1, readFrom_of_nil rfl, readFrom_of_nil rfl]
  exact ⟨rfl, rfl⟩

end Scan

end WatTypes
