/-!
# Terminal control sequences

A control sequence is an escape character and `[`, then parameter characters from `0` to `?`, then
intermediate characters from space to `/`, then one final character from `@` to `~`. Text that is
not meant for a terminal is shown without its control sequences (`withoutControlSequences`): one
pass from left to right that takes each complete sequence away and leaves incomplete ones alone.
-/

set_option autoImplicit false
set_option relaxedAutoImplicit false

namespace WatTypes.Text

/-- Parameter characters of a control sequence. -/
def isParameter (c : Char) : Bool := decide ('0' ≤ c ∧ c ≤ '?')

/-- Intermediate characters of a control sequence. -/
def isIntermediate (c : Char) : Bool := decide (' ' ≤ c ∧ c ≤ '/')

/-- Final characters of a control sequence. -/
def isFinal (c : Char) : Bool := decide ('@' ≤ c ∧ c ≤ '~')

/-- What follows the control sequence that starts a text, if one does. -/
def afterControlSequence? : List Char → Option (List Char)
  | '\x1b' :: '[' :: rest =>
    match (rest.dropWhile isParameter).dropWhile isIntermediate with
    | c :: after => if isFinal c then some after else none
    | [] => none
  | _ => none

theorem length_dropWhile_le (keep : Char → Bool) (cs : List Char) :
    (cs.dropWhile keep).length ≤ cs.length :=
  (List.dropWhile_sublist keep).length_le

theorem length_lt_of_afterControlSequence? {cs after : List Char}
    (h : afterControlSequence? cs = some after) : after.length < cs.length := by
  unfold afterControlSequence? at h
  split at h
  · rename_i rest
    have first := length_dropWhile_le isParameter rest
    have second := length_dropWhile_le isIntermediate (rest.dropWhile isParameter)
    split at h
    · rename_i c tail heq
      split at h
      · cases h
        simp only [heq, List.length_cons] at second
        simp only [List.length_cons]
        omega
      · cases h
    · cases h
  · cases h

/-- A text without its control sequences. -/
def withoutControlSequences (cs : List Char) : List Char :=
  match _h : afterControlSequence? cs with
  | some after => withoutControlSequences after
  | none =>
    match cs with
    | [] => []
    | c :: rest => c :: withoutControlSequences rest
termination_by cs.length
decreasing_by
  · exact length_lt_of_afterControlSequence? _h
  · simp

end WatTypes.Text
