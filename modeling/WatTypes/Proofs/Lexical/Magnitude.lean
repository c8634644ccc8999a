import Mathlib.Data.Nat.Digits.Defs
import WatTypes.Proofs.Lexical.Number

/-!
# What integer literals denote

The digits of an integer literal denote a number by their places (`placeValue`), after an optional
sign (`IntegerDenotes`). Every integer literal denotes exactly one number
(`exists_integerDenotes_iff`, `IntegerDenotes.unique`).

To tell the literals that fit into 32 bits, the digits that count are counted first. Low lines and
zeros in front count for nothing (`ofDigits_dropWhile_zero`), and whatever starts with another digit
is at least the power of the base that belongs to its place (`pow_length_le_ofDigits`), so that the
count turns away only what is too large; the rest is short enough to be converted
(`value?_of_length_le`), and what is told is exactly whether the number fits
(`unsigned32?_of_unsignedDenotes`).
-/

set_option autoImplicit false
set_option relaxedAutoImplicit false

namespace WatTypes

/-! ### Places -/

namespace Text

/-- Converting digits from the first to the last sums them up by their places. -/
theorem ofDigits_eq (base : Nat) (digits : List Char) :
    ofDigits base digits = Nat.ofDigits base (digits.reverse.map digitValue) := by
  induction digits using List.reverseRecOn with
  | nil => rfl
  | append_singleton front c ih =>
    rw [ofDigits, List.foldl_concat, ← ofDigits, ih, List.reverse_concat, List.map_cons,
      Nat.ofDigits_cons, Nat.mul_comm, Nat.add_comm]

/-- Zeros in front count for nothing. -/
theorem ofDigits_dropWhile_zero (base : Nat) (digits : List Char) :
    ofDigits base (digits.dropWhile (· = '0')) = ofDigits base digits := by
  induction digits with
  | nil => rfl
  | cons c rest ih =>
    by_cases hzero : c = '0'
    · subst hzero
      rw [List.dropWhile_cons_of_pos (by decide), ih, ofDigits, ofDigits, List.foldl_cons,
        Nat.zero_mul]
      rfl
    · rw [List.dropWhile_cons_of_neg (by simpa using hzero)]

/-- What starts with a digit that counts is at least the power of the base at its place. -/
theorem pow_length_le_ofDigits (base : Nat) {c : Char} (rest : List Char) (h : 1 ≤ digitValue c) :
    base ^ rest.length ≤ ofDigits base (c :: rest) := by
  have hlength : (rest.reverse.map digitValue).length = rest.length := by
    rw [List.length_map, List.length_reverse]
  rw [ofDigits_eq, List.reverse_cons, List.map_append, Nat.ofDigits_append, hlength,
    List.map_singleton, Nat.ofDigits_singleton]
  exact Nat.le_trans (Nat.le_mul_of_pos_right _ h) (Nat.le_add_left _ _)

/-- Hexadecimal digits other than zero count for something. -/
theorem one_le_digitValue {c : Char} (h : isHexDigit c = true) (hzero : c ≠ '0') :
    1 ≤ digitValue c := by
  have hne : c.toNat ≠ 48 := fun heq ↦ hzero (Char.toNat_inj.mp heq)
  unfold isHexDigit hexValue? at h
  unfold digitValue hexValue?
  split
  · rename_i hdecimal
    have hle : 48 ≤ c.toNat := hdecimal.1
    simp only [Option.getD_some]
    change 1 ≤ c.toNat - 48
    omega
  · rename_i hdecimal
    rw [if_neg hdecimal] at h
    split
    · exact Nat.succ_pos _
    · rename_i hlower
      rw [if_neg hlower] at h
      split
      · exact Nat.succ_pos _
      · rename_i hupper
        rw [if_neg hupper] at h
        cases h

/-- Decimal digits are hexadecimal ones. -/
theorem isHexDigit_of_isDigit {c : Char} (h : c.isDigit = true) : isHexDigit c = true := by
  have hdecimal : '0' ≤ c ∧ c ≤ '9' := by
    simp only [Char.isDigit, Bool.and_eq_true, decide_eq_true_eq] at h
    exact h
  rw [isHexDigit, hexValue?, if_pos hdecimal]
  rfl

end Text

/-! ### Literals -/

namespace Lexeme.Syntax

open Number
open scoped Computability

/-- The number that a run of digits denotes in a base: the last digit counts least, and low lines
only part them. -/
def placeValue (base : Nat) (run : List Char) : Nat :=
  Nat.ofDigits base ((run.filter (· ≠ '_')).reverse.map Text.digitValue)

/-- An integer literal without a sign denotes a number. -/
inductive UnsignedDenotes : List Char → Nat → Prop
  /-- In decimal digits. -/
  | decimal {run : List Char} : run ∈ digits Char.isDigit → UnsignedDenotes run (placeValue 10 run)
  /-- In hexadecimal digits. -/
  | hexadecimal {run : List Char} : run ∈ digits Text.isHexDigit →
    UnsignedDenotes ('0' :: 'x' :: run) (placeValue 16 run)

/-- An integer literal denotes a number. -/
inductive IntegerDenotes : List Char → Int → Prop
  /-- Without a sign. -/
  | unsigned {word : List Char} {number : Nat} : UnsignedDenotes word number →
    IntegerDenotes word number
  /-- With a plus sign. -/
  | plus {word : List Char} {number : Nat} : UnsignedDenotes word number →
    IntegerDenotes ('+' :: word) number
  /-- With a minus sign. -/
  | minus {word : List Char} {number : Nat} : UnsignedDenotes word number →
    IntegerDenotes ('-' :: word) (-number)

/-- A literal starts with a sign. -/
def HasSign (word : List Char) : Prop := word.head? = some '+' ∨ word.head? = some '-'

section Denotes

variable {word run : List Char} {number : Nat}

/-- In a run of digits every character but the low lines is a digit. -/
theorem isDigit_of_mem_filter {isDigit : Char → Bool} (h : run ∈ digits isDigit) :
    ∀ c ∈ run.filter (· ≠ '_'), isDigit c = true := by
  have hover : IsOver (fun c ↦ c ≠ '_' → isDigit c = true) (digits isDigit) :=
    isOver_digits (fun c hc _ ↦ hc) fun h ↦ absurd rfl h
  intro c hc
  obtain ⟨hmem, hlow⟩ := List.mem_filter.mp hc
  exact hover run h c hmem (by simpa using hlow)

/-- Decimal digits hold no mark of another base, and no sign. -/
theorem ne_of_mem_decimal (h : run ∈ digits Char.isDigit) :
    ∀ c ∈ run, c ≠ 'x' ∧ c ≠ '+' ∧ c ≠ '-' :=
  isOver_digits (fun _ hc ↦ ⟨ne_of_digit hc (by decide), ne_of_digit hc (by decide),
    ne_of_digit hc (by decide)⟩) (by decide) run h

/-- A literal without a sign starts with none. -/
theorem UnsignedDenotes.not_hasSign (h : UnsignedDenotes word number) : ¬ HasSign word := by
  cases h with
  | decimal hrun =>
    rintro (hsign | hsign)
    · exact (ne_of_mem_decimal hrun _ (List.mem_of_mem_head? hsign)).2.1 rfl
    · exact (ne_of_mem_decimal hrun _ (List.mem_of_mem_head? hsign)).2.2 rfl
  | hexadecimal _ => simp [HasSign]

/-- A literal without a sign denotes one number only. -/
theorem UnsignedDenotes.unique {other : Nat} (h : UnsignedDenotes word number)
    (hother : UnsignedDenotes word other) : number = other := by
  have hmark (run : List Char) : '0' :: 'x' :: run ∉ digits Char.isDigit := fun hrun ↦
    (ne_of_mem_decimal hrun 'x' (by simp)).1 rfl
  cases h with
  | decimal hrun =>
    cases hother with
    | decimal _ => rfl
    | hexadecimal _ => exact absurd hrun (hmark _)
  | hexadecimal _ =>
    cases hother with
    | decimal hrun => exact absurd hrun (hmark _)
    | hexadecimal _ => rfl

/-- An integer literal denotes one number only. -/
theorem IntegerDenotes.unique {value other : Int} (h : IntegerDenotes word value)
    (hother : IntegerDenotes word other) : value = other := by
  have hsign {sign : Char} (hsign : sign = '+' ∨ sign = '-') {rest : List Char} {number : Nat}
      (hrest : UnsignedDenotes (sign :: rest) number) : False := by
    apply hrest.not_hasSign
    rcases hsign with rfl | rfl
    · exact .inl rfl
    · exact .inr rfl
  cases h with
  | unsigned hword =>
    cases hother with
    | unsigned hsame => rw [hword.unique hsame]
    | plus _ => exact (hsign (.inl rfl) hword).elim
    | minus _ => exact (hsign (.inr rfl) hword).elim
  | plus hword =>
    cases hother with
    | unsigned hsame => exact (hsign (.inl rfl) hsame).elim
    | plus hsame => rw [hword.unique hsame]
  | minus hword =>
    cases hother with
    | unsigned hsame => exact (hsign (.inr rfl) hsame).elim
    | minus hsame => rw [hword.unique hsame]

/-- What has no sign denotes a natural number. -/
theorem IntegerDenotes.exists_unsigned {value : Int} (h : IntegerDenotes word value)
    (hplain : ¬ HasSign word) : ∃ number : Nat, UnsignedDenotes word number ∧ value = number := by
  cases h with
  | unsigned hnumber => exact ⟨_, hnumber, rfl⟩
  | plus _ => exact absurd (.inl rfl) hplain
  | minus _ => exact absurd (.inr rfl) hplain

/-- The integer literals are what denotes a number. -/
theorem exists_integerDenotes_iff : (∃ value, IntegerDenotes word value) ↔ word ∈ integer := by
  have hunsigned {word : List Char} : (∃ number, UnsignedDenotes word number) ↔
      word ∈ exactly "0x" * digits Text.isHexDigit + digits Char.isDigit := by
    rw [Language.mem_add, mem_exactly_mul_iff]
    constructor
    · rintro ⟨_, hrun | hrun⟩
      · exact .inr hrun
      · exact .inl ⟨_, hrun, rfl⟩
    · rintro (⟨run, hrun, rfl⟩ | hrun)
      · exact ⟨_, .hexadecimal hrun⟩
      · exact ⟨_, .decimal hrun⟩
  rw [integer, Language.mem_mul]
  constructor
  · rintro ⟨_, hword | hword | hword⟩
    · exact ⟨[], .inl (.inl rfl), _, hunsigned.mp ⟨_, hword⟩, rfl⟩
    · exact ⟨['+'], .inl (.inr rfl), _, hunsigned.mp ⟨_, hword⟩, rfl⟩
    · exact ⟨['-'], .inr rfl, _, hunsigned.mp ⟨_, hword⟩, rfl⟩
  · rintro ⟨_, (rfl | rfl) | rfl, _, hword, rfl⟩
    · obtain ⟨number, hnumber⟩ := hunsigned.mpr hword
      exact ⟨number, .unsigned hnumber⟩
    · obtain ⟨number, hnumber⟩ := hunsigned.mpr hword
      exact ⟨number, .plus hnumber⟩
    · obtain ⟨number, hnumber⟩ := hunsigned.mpr hword
      exact ⟨-number, .minus hnumber⟩

/-! ### Counting digits -/

/-- The numeral of a literal has its base and those of its digits that count. -/
theorem ofLiteral_of_unsignedDenotes (h : UnsignedDenotes word number) :
    ∃ base run, ((base = 16 ∧ run ∈ digits Text.isHexDigit) ∨
        (base = 10 ∧ run ∈ digits Char.isDigit)) ∧ number = placeValue base run ∧
      Numeral.ofLiteral word = ⟨base, (run.filter (· ≠ '_')).dropWhile (· = '0')⟩ := by
  cases h with
  | decimal hrun =>
    refine ⟨10, word, .inr ⟨rfl, hrun⟩, rfl, ?_⟩
    unfold Numeral.ofLiteral
    split
    · rename_i digits hmarked
      have hx : 'x' ∈ word.filter (· ≠ '_') := by rw [hmarked]; simp
      exact absurd rfl (ne_of_mem_decimal hrun 'x' (List.mem_filter.mp hx).1).1
    · rfl
  | hexadecimal hrun => exact ⟨16, _, .inl ⟨rfl, hrun⟩, rfl, rfl⟩

/-- The numeral of a literal denotes what the literal denotes, and one that has more digits than a
number of 32 bits has in its base denotes more than such a number. -/
theorem ofDigits_ofLiteral (h : UnsignedDenotes word number) :
    Text.ofDigits (Numeral.ofLiteral word).base (Numeral.ofLiteral word).digits = number ∧
      ((Numeral.ofLiteral word).mostDigits < (Numeral.ofLiteral word).digits.length →
        4294967295 < number) := by
  obtain ⟨base, run, hbase, hnumber, heq⟩ := ofLiteral_of_unsignedDenotes h
  have hvalue : Text.ofDigits base ((run.filter (· ≠ '_')).dropWhile (· = '0')) = number := by
    rw [Text.ofDigits_dropWhile_zero, Text.ofDigits_eq, hnumber, placeValue]
  rw [heq]
  refine ⟨hvalue, fun hlong ↦ ?_⟩
  have hdigit (c : Char) (hc : c ∈ run.filter (· ≠ '_')) : Text.isHexDigit c = true := by
    rcases hbase with ⟨-, hrun⟩ | ⟨-, hrun⟩
    · exact isDigit_of_mem_filter hrun c hc
    · exact Text.isHexDigit_of_isDigit (isDigit_of_mem_filter hrun c hc)
  have hzero := List.head?_dropWhile_not (· = '0') (run.filter (· ≠ '_'))
  have hmem := (List.dropWhile_suffix (· = '0') (l := run.filter (· ≠ '_'))).subset
  generalize (run.filter (· ≠ '_')).dropWhile (· = '0') = counted at hvalue hlong hzero hmem
  cases counted with
  | nil => exact absurd hlong (Nat.not_lt_zero _)
  | cons c rest =>
    have hcounts : 1 ≤ Text.digitValue c :=
      Text.one_le_digitValue (hdigit c (hmem List.mem_cons_self)) (by simpa using hzero)
    have hpower : base ^ rest.length ≤ number :=
      hvalue ▸ Text.pow_length_le_ofDigits base rest hcounts
    simp only [Numeral.mostDigits, List.length_cons] at hlong
    rcases hbase with ⟨rfl, -⟩ | ⟨rfl, -⟩
    · have hleast : 16 ^ 8 ≤ 16 ^ rest.length :=
        Nat.pow_le_pow_right (by decide) (by simpa using Nat.le_of_lt_succ hlong)
      omega
    · have hleast : 10 ^ 10 ≤ 10 ^ rest.length :=
        Nat.pow_le_pow_right (by decide) (by simpa using Nat.le_of_lt_succ hlong)
      omega

/-- A numeral with no more digits than a number of 32 bits is converted. -/
theorem value?_of_length_le {numeral : Numeral}
    (h : numeral.digits.length ≤ numeral.mostDigits) :
    numeral.value? = some (Text.ofDigits numeral.base numeral.digits) := by
  rw [Numeral.value?, if_neg]
  rintro ⟨hbase, hlong⟩
  rw [Numeral.mostDigits, hbase, if_neg (by decide)] at h
  rw [Text.mostDecimalDigits] at hlong
  omega

/-- A literal without a sign is read as the number that it denotes if that fits into 32 bits, and
not at all otherwise. -/
theorem unsigned32?_of_unsignedDenotes {literal : String}
    (h : UnsignedDenotes literal.toList number) :
    unsigned32? literal = if number ≤ 4294967295 then some number else none := by
  have hsign := h.not_hasSign
  obtain ⟨hvalue, hlong⟩ := ofDigits_ofLiteral h
  unfold unsigned32?
  split
  · rename_i heq
    exact absurd (.inl (by rw [heq]; rfl)) hsign
  · rename_i heq
    exact absurd (.inr (by rw [heq]; rfl)) hsign
  · simp only
    split
    · rename_i hcount
      rw [if_neg (Nat.not_le.mpr (hlong hcount))]
    · rename_i hcount
      rw [value?_of_length_le (Nat.not_lt.mp hcount), hvalue, Option.filter_some]
      simp only [decide_eq_true_eq]

end Denotes

end Lexeme.Syntax

end WatTypes
