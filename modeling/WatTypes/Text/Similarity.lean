/-!
# Similar texts

How much two texts have in common is told by their longest common block: its characters count, and
then what the texts have in common before it and behind it (`sharedCount`). Of several longest
blocks the one that comes first in the first text is taken, and of these the one that comes first in
the second text. Two texts are similar if at least three fifths of their characters are shared; so
a word is told from a slip of the hand (`similar`).
-/

set_option autoImplicit false
set_option relaxedAutoImplicit false

namespace WatTypes.Text

/-- The number of characters that two texts have in common at their start. -/
def sharedAtStart : List Char → List Char → Nat
  | c :: first, d :: second => if c = d then sharedAtStart first second + 1 else 0
  | _, _ => 0

/-- A run of characters that stands in two texts. -/
structure CommonBlock where
  /-- The number of characters before it in the first text. -/
  inFirst : Nat
  /-- The number of characters before it in the second text. -/
  inSecond : Nat
  /-- The number of its characters. -/
  size : Nat
deriving DecidableEq, Repr

/-- The longest block at the start of the first text and anywhere in the second one. -/
def longestAtStart (first : List Char) : List Char → CommonBlock
  | [] => ⟨0, 0, 0⟩
  | d :: second =>
    let size := sharedAtStart first (d :: second)
    let later := longestAtStart first second
    if size < later.size then ⟨0, later.inSecond + 1, later.size⟩ else ⟨0, 0, size⟩

/-- The longest block of two texts. -/
def longestBlock : List Char → List Char → CommonBlock
  | [], _ => ⟨0, 0, 0⟩
  | c :: first, second =>
    let here := longestAtStart (c :: first) second
    let later := longestBlock first second
    if here.size < later.size then ⟨later.inFirst + 1, later.inSecond, later.size⟩ else here

theorem inFirst_longestAtStart (first second : List Char) :
    (longestAtStart first second).inFirst = 0 := by
  cases second with
  | nil => rfl
  | cons d second =>
    simp only [longestAtStart]
    split <;> rfl

theorem sharedAtStart_le (first second : List Char) :
    sharedAtStart first second ≤ first.length := by
  fun_induction sharedAtStart first second with
  | case1 first second d ih => simpa using ih
  | case2 => exact Nat.zero_le _
  | case3 => exact Nat.zero_le _

theorem size_longestAtStart_le (first second : List Char) :
    (longestAtStart first second).size ≤ first.length := by
  induction second with
  | nil => exact Nat.zero_le _
  | cons d second ih =>
    simp only [longestAtStart]
    split
    · exact ih
    · exact sharedAtStart_le first (d :: second)

/-- A block ends where the first text ends, or before. -/
theorem end_longestBlock_le (first second : List Char) :
    (longestBlock first second).inFirst + (longestBlock first second).size ≤ first.length := by
  induction first with
  | nil => exact Nat.le_refl 0
  | cons c first ih =>
    simp only [longestBlock]
    split
    · simp only [List.length_cons]
      omega
    · rw [inFirst_longestAtStart, Nat.zero_add]
      exact size_longestAtStart_le (c :: first) second

/-- The number of characters that two texts share, block by block. -/
def sharedCount (first second : List Char) : Nat :=
  let block := longestBlock first second
  if block.size = 0 then 0
  else
    sharedCount (first.take block.inFirst) (second.take block.inSecond) + block.size +
      sharedCount (first.drop (block.inFirst + block.size))
        (second.drop (block.inSecond + block.size))
termination_by first.length
decreasing_by
  all_goals
    have := end_longestBlock_le first second
    have : (longestBlock first second).size ≠ 0 := by assumption
    simp only [List.length_take, List.length_drop]
    omega

/-- Whether at least three fifths of the characters of two texts are shared. -/
def isSimilar (first second : List Char) : Bool :=
  3 * (first.length + second.length) ≤ 10 * sharedCount first second

/-- The names that are similar to a word. -/
def similar (word : String) (names : List String) : List String :=
  names.filter fun name ↦ isSimilar name.toList word.toList

end WatTypes.Text
