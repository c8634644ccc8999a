/-!
# Sets of code points

The character classes of this library that reach beyond ASCII are sets of code points, written as
their maximal runs in ascending order. Membership (`CodePoints.contains`) is a scan of the runs,
and `CodePoints.contains_iff` reads it back as a statement about a single run.
-/

set_option autoImplicit false
set_option relaxedAutoImplicit false

namespace WatTypes.Text

/-- A set of code points: its maximal runs in ascending order, each with its first and its last
member. -/
structure CodePoints where
  /-- The maximal runs, each a first and a last member. -/
  runs : List (Nat × Nat)

namespace CodePoints

/-- Whether a character lies in one of the runs. -/
def contains (members : CodePoints) (c : Char) : Bool :=
  members.runs.any fun run ↦ decide (run.1 ≤ c.toNat) && decide (c.toNat ≤ run.2)

/-- The first run that reaches up to a character, together with the character's offset in it. -/
def offset? (members : CodePoints) (c : Char) : Option Nat :=
  (members.runs.find? fun run ↦ decide (run.1 ≤ c.toNat) && decide (c.toNat ≤ run.2)).map
    fun run ↦ c.toNat - run.1

theorem contains_iff (members : CodePoints) (c : Char) :
    members.contains c = true ↔ ∃ run ∈ members.runs, run.1 ≤ c.toNat ∧ c.toNat ≤ run.2 := by
  simp [contains, List.any_eq_true]

end CodePoints

end WatTypes.Text
