/-!
# Hexadecimal digits and numerals

Lower-case digits are written, digits of either case are read, and reading a written digit gives
its value back (`hexValue?_hexDigit`). Digits make up a numeral in any base up to sixteen
(`ofDigits`); decimal numerals are converted to numbers up to a length only.
-/

set_option autoImplicit false
set_option relaxedAutoImplicit false

namespace WatTypes.Text

/-- The lower-case hexadecimal digit of a number below sixteen. -/
def hexDigit (value : Nat) : Char :=
  if value < 10 then Char.ofNat ('0'.toNat + value) else Char.ofNat ('a'.toNat + (value - 10))

/-- The last `width` hexadecimal digits of a number, the most significant first. -/
def hexDigits : Nat → Nat → List Char
  | 0, _ => []
  | width + 1, value => hexDigits width (value / 16) ++ [hexDigit (value % 16)]

/-- The value of a hexadecimal digit of either case. -/
def hexValue? (c : Char) : Option Nat :=
  if '0' ≤ c ∧ c ≤ '9' then some (c.toNat - '0'.toNat)
  else if 'a' ≤ c ∧ c ≤ 'f' then some (c.toNat - 'a'.toNat + 10)
  else if 'A' ≤ c ∧ c ≤ 'F' then some (c.toNat - 'A'.toNat + 10)
  else none

/-- Whether a character is a hexadecimal digit of either case. -/
def isHexDigit (c : Char) : Bool := (hexValue? c).isSome

/-- The value of a digit of a numeral; other characters count for nothing. -/
def digitValue (c : Char) : Nat := (hexValue? c).getD 0

/-- The number that digits denote in a base. -/
def ofDigits (base : Nat) (digits : List Char) : Nat :=
  digits.foldl (fun value c ↦ value * base + digitValue c) 0

/-- The number of decimal digits up to which a numeral is converted to a number. -/
def mostDecimalDigits : Nat := 4300

theorem hexValue?_hexDigit {value : Nat} (h : value < 16) :
    hexValue? (hexDigit value) = some value := by
  have all : ∀ n : Fin 16, hexValue? (hexDigit n) = some n.val := by decide
  exact all ⟨value, h⟩

/-- The digits of a number are hexadecimal digits. -/
theorem exists_hexDigit_of_mem {width value : Nat} {c : Char} (h : c ∈ hexDigits width value) :
    ∃ digit : Fin 16, c = hexDigit digit := by
  induction width generalizing value with
  | zero => cases h
  | succ width ih =>
    rcases List.mem_append.mp h with hfront | hlast
    · exact ih hfront
    · exact ⟨⟨value % 16, Nat.mod_lt _ (by decide)⟩, List.mem_singleton.mp hlast⟩

end WatTypes.Text
