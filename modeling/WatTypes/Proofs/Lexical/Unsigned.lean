import WatTypes.Proofs.Leniency
import WatTypes.Proofs.Reading

/-!
# Unsigned integers of 32 bits are read exactly

Every integer of a source denotes exactly one number. It shows as an unsigned integer of 32 bits,
at whatever distance from the cursor, exactly if it has no sign and the number fits into 32 bits;
it is then read as the number, and otherwise refused where it stands (`unsigned_of_read`). The
digits that count are counted before the literal is converted: this refuses no number that fits, and
hands on no numeral that is too long to be converted.
-/

set_option autoImplicit false
set_option relaxedAutoImplicit false

namespace WatTypes

open Grammar Lexeme Lexeme.Syntax Number

/-! ### Integers of sources -/

/-- The integers of a source are integer literals. -/
theorem mem_integer_of_read {file source : String} {limit : Option NestingLimit}
    {tokens : TokenList} (h : TokenList.read file limit source = .ok tokens) {token : Token}
    (htoken : token ∈ tokens.body) {literal : String} (hliteral : token.lexeme = .integer literal) :
    literal.toList ∈ Syntax.integer := by
  obtain ⟨first, last, -, hspells⟩ := (tiles_spells_of_read h).exists_of_mem htoken
  rw [hliteral] at hspells
  generalize source.toList.extract first (last + 1) = slice at hspells
  cases hspells with
  | word _ hlexeme =>
    rcases ofWord_cases hlexeme with ⟨_, -, -, hother⟩ | ⟨_, -, -, hother⟩ | ⟨hinteger, hsame⟩ |
      ⟨-, hother⟩ | ⟨_, _, -, -, hother⟩
    · cases hother
    · cases hother
    · cases hsame
      rw [String.toList_ofList]
      exact isInteger_iff.mp hinteger
    · cases hother
    · cases hother

/-- A literal is read as an unsigned integer of 32 bits if it has no sign and denotes a number that
fits, and not at all otherwise. -/
theorem unsigned32?_eq_some_iff {literal : String} {value : Int} {number : Nat}
    (h : IntegerDenotes literal.toList value) :
    unsigned32? literal = some number ↔
      ¬ HasSign literal.toList ∧ value ≤ 4294967295 ∧ value = number := by
  have hsigned {sign : Char} (hsign : sign = '+' ∨ sign = '-') {rest : List Char}
      (heq : literal.toList = sign :: rest) : unsigned32? literal = none := by
    unfold unsigned32?
    rw [heq]
    rcases hsign with rfl | rfl <;> rfl
  generalize hword : literal.toList = word at h
  cases h with
  | @unsigned _ found hfound =>
    have hplain := hfound.not_hasSign
    subst hword
    rw [unsigned32?_of_unsignedDenotes hfound, Option.ite_none_right_eq_some, Option.some.injEq]
    constructor
    · rintro ⟨hbound, rfl⟩
      exact ⟨hplain, by omega, rfl⟩
    · rintro ⟨-, hbound, hsame⟩
      omega
  | plus _ => simp [hsigned (.inl rfl) hword, HasSign]
  | minus _ => simp [hsigned (.inr rfl) hword, HasSign]

/-- What a literal without a sign denotes is the value of its numeral, where few enough digits
count, and does not fit into 32 bits otherwise. -/
theorem value?_ofLiteral {word : List Char} {value : Int} (h : IntegerDenotes word value)
    (hplain : ¬ HasSign word) :
    ((Numeral.ofLiteral word).mostDigits < (Numeral.ofLiteral word).digits.length →
        4294967295 < value) ∧
      ((Numeral.ofLiteral word).digits.length ≤ (Numeral.ofLiteral word).mostDigits →
        ∃ number, (Numeral.ofLiteral word).value? = some number ∧ value = (number : Nat)) := by
  obtain ⟨number, hnumber, rfl⟩ := h.exists_unsigned hplain
  obtain ⟨hvalue, hlong⟩ := ofDigits_ofLiteral hnumber
  refine ⟨fun hcount ↦ ?_, fun hcount ↦ ⟨_, value?_of_length_le hcount, by rw [hvalue]⟩⟩
  have hbound := hlong hcount
  omega

/-! ### Reading them -/

/-- Assumes: a token of a source that is read is an integer. Its literal denotes one number. The
token shows as an unsigned integer of 32 bits, at any distance, exactly if the literal has no sign
and the number fits; where it shows next, the number is read and the token alone is passed, and
where it does not, it is refused and nothing is passed. Of the literals without a sign, those with
more digits that count than a number of 32 bits can have denote more than such a number, and the
others are short enough to be converted to what they denote. -/
theorem unsigned_of_read {file source : String} {limit : Option NestingLimit} {tokens : TokenList}
    (h : TokenList.read file limit source = .ok tokens) {token : Token}
    (htoken : token ∈ tokens.body) {literal : String} (hliteral : token.lexeme = .integer literal) :
    ∃ value : Int, (∀ other, IntegerDenotes literal.toList other ↔ other = value) ∧
      (∀ (here : Cursor) (distance : Nat), here.tokenAt distance = token →
        (here.shows distance .unsigned = true ↔
          ¬ HasSign literal.toList ∧ value ≤ 4294967295)) ∧
      (∀ here : Cursor, here.current = token →
        (here.shows 0 .unsigned = true → ∃ number there, value = (number : Nat) ∧
          Cursor.Passes [token] here there ∧
          Element.unsigned.read here = (.ok number, there)) ∧
        (here.shows 0 .unsigned = false → Element.unsigned.read here =
          (.error (.unexpected ["u32"] token.lexeme.describe token.span), here))) ∧
      (¬ HasSign literal.toList →
        ((Numeral.ofLiteral literal.toList).mostDigits <
            (Numeral.ofLiteral literal.toList).digits.length → 4294967295 < value) ∧
          ((Numeral.ofLiteral literal.toList).digits.length ≤
            (Numeral.ofLiteral literal.toList).mostDigits →
              ∃ number, (Numeral.ofLiteral literal.toList).value? = some number ∧
                value = (number : Nat))) := by
  obtain ⟨value, hvalue⟩ := exists_integerDenotes_iff.mpr (mem_integer_of_read h htoken hliteral)
  have hunsigned : token.unsigned? = unsigned32? literal := by rw [Token.unsigned?, hliteral]
  refine ⟨value, fun other ↦ ⟨fun hother ↦ hother.unique hvalue, fun heq ↦ heq ▸ hvalue⟩,
    fun here distance hshown ↦ ?_, fun here hnext ↦ ⟨fun hshows ↦ ?_, fun hshows ↦ ?_⟩,
    value?_ofLiteral hvalue⟩
  · rw [Cursor.shows, hshown, hunsigned, Option.isSome_iff_exists]
    constructor
    · rintro ⟨number, hnumber⟩
      obtain ⟨hplain, hbound, -⟩ := (unsigned32?_eq_some_iff hvalue).mp hnumber
      exact ⟨hplain, hbound⟩
    · rintro ⟨hplain, hbound⟩
      obtain ⟨number, -, heq⟩ := hvalue.exists_unsigned hplain
      exact ⟨number, (unsigned32?_eq_some_iff hvalue).mpr ⟨hplain, hbound, heq⟩⟩
  · obtain ⟨number, hnumber⟩ := Option.isSome_iff_exists.mp hshows
    have hmeaning : token.unsigned? = some number := by rw [← hnext]; exact hnumber
    have hpasses : Cursor.Passes [token] here here.advance := by
      have hadvance : Cursor.Passes [here.current] here here.advance :=
        Cursor.passes_advance (by rw [hnext, hliteral]; simp)
      rwa [hnext] at hadvance
    obtain ⟨-, -, heq⟩ := (unsigned32?_eq_some_iff hvalue).mp (hunsigned ▸ hmeaning)
    exact ⟨number, here.advance, heq, hpasses, Rule.token_of_some hnumber⟩
  · have hnone : here.current.unsigned? = none := by
      simpa [Cursor.shows, Cursor.current] using hshows
    rw [Element.read, Rule.unsigned, Rule.token_of_none hnone, Cursor.unexpected, hnext]
    rfl

/-- The greatest number of 32 bits, with more digits than it needs. -/
def paddedNumber : Token := ⟨.integer "0x00_0000_FFFF_ffff", ⟨"", ⟨1, 1⟩, ⟨1, 19⟩⟩⟩

/-- The tokens of a source that holds that number alone. -/
def paddedTokens : TokenList := ⟨[paddedNumber], .upTo "" ⟨1, 20⟩ ⟨1, 20⟩⟩

theorem unsigned_of_read_paddedNumber :
    TokenList.read "" none "0x00_0000_FFFF_ffff" = .ok paddedTokens ∧
      (Cursor.start paddedTokens).shows 0 .unsigned = true ∧
      ∃ there, Cursor.Passes [paddedNumber] (.start paddedTokens) there ∧
        Element.unsigned.read (.start paddedTokens) = (.ok 4294967295, there) := by
  have hread : TokenList.read "" none "0x00_0000_FFFF_ffff" = .ok paddedTokens := by decide +kernel
  have hliteral : paddedNumber.lexeme = .integer "0x00_0000_FFFF_ffff" := rfl
  obtain ⟨value, hunique, hshows, hreads, -⟩ :=
    unsigned_of_read hread (List.mem_singleton.mpr rfl) hliteral
  have hrun : "00_0000_FFFF_ffff".toList ∈ digits Text.isHexDigit :=
    (isDigits_iff (by decide)).mp (by decide)
  have hvalue : (4294967295 : Nat) = value := (hunique _).mp (.unsigned (.hexadecimal hrun))
  have hfits : (Cursor.start paddedTokens).shows 0 .unsigned = true :=
    (hshows (.start paddedTokens) 0 rfl).mpr ⟨by simp [HasSign], by omega⟩
  obtain ⟨number, there, hnumber, hpasses, hrun⟩ := (hreads (.start paddedTokens) rfl).1 hfits
  have hsame : number = 4294967295 := by omega
  subst hsame
  exact ⟨hread, hfits, there, hpasses, hrun⟩

end WatTypes
