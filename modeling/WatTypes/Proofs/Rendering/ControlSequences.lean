import Mathlib.Data.List.TakeWhile
import WatTypes.Text.ControlSequence

/-!
# Taking control sequences away

What is a control sequence is told by its characters alone (`IsControlSequence`), and one pass takes
away those that a text starts with, one after the other (`afterControlSequence?_eq_some_iff`). Of
two texts, one behind the other, the same is taken as of each alone, unless a control sequence that
starts in the first ends in the second (`withoutControlSequences_append`). None does so if the
second text starts with no printable ASCII character, or if the first ends with one that only ends
control sequences, however much of a sequence there is in front of it.
-/

set_option autoImplicit false
set_option relaxedAutoImplicit false

namespace WatTypes.Text

/-! ### Control sequences -/

theorem isParameter_iff {c : Char} : isParameter c = true ↔ 0x30 ≤ c.toNat ∧ c.toNat ≤ 0x3f :=
  decide_eq_true_iff

theorem isIntermediate_iff {c : Char} :
    isIntermediate c = true ↔ 0x20 ≤ c.toNat ∧ c.toNat ≤ 0x2f := decide_eq_true_iff

theorem isFinal_iff {c : Char} : isFinal c = true ↔ 0x40 ≤ c.toNat ∧ c.toNat ≤ 0x7e :=
  decide_eq_true_iff

/-- A control sequence with nothing behind it. -/
inductive IsControlSequence : List Char → Prop
  /-- From the escape character to the final character. -/
  | mk {parameters intermediates : List Char} {last : Char} :
    (∀ c ∈ parameters, isParameter c = true) → (∀ c ∈ intermediates, isIntermediate c = true) →
    isFinal last = true →
    IsControlSequence ('\x1b' :: '[' :: (parameters ++ (intermediates ++ [last])))

/-- What starts with neither kind of character is what both are dropped from. -/
theorem dropWhile_parameters_append {parameters intermediates : List Char} {last : Char}
    (hparameters : ∀ c ∈ parameters, isParameter c = true)
    (hintermediates : ∀ c ∈ intermediates, isIntermediate c = true) (hlast : isFinal last = true)
    (rest : List Char) :
    ((parameters ++ (intermediates ++ last :: rest)).dropWhile isParameter).dropWhile
      isIntermediate = last :: rest := by
  have hfinal := isFinal_iff.mp hlast
  have hother : ¬ isParameter last = true := fun h ↦ by
    have := isParameter_iff.mp h
    omega
  have hneither : ¬ isIntermediate last = true := fun h ↦ by
    have := isIntermediate_iff.mp h
    omega
  have hbehind : (intermediates ++ last :: rest).dropWhile isParameter =
      intermediates ++ last :: rest := by
    cases intermediates with
    | nil => exact List.dropWhile_cons_of_neg hother
    | cons c others =>
      refine List.dropWhile_cons_of_neg fun h ↦ ?_
      have hparameter := isParameter_iff.mp h
      have hintermediate := isIntermediate_iff.mp (hintermediates c List.mem_cons_self)
      omega
  rw [List.dropWhile_append_of_pos hparameters, hbehind,
    List.dropWhile_append_of_pos hintermediates, List.dropWhile_cons_of_neg hneither]

/-- Something follows the control sequence at the start of a text exactly if it follows there. -/
theorem afterControlSequence?_eq_some_iff {text after : List Char} :
    afterControlSequence? text = some after ↔
      ∃ code, IsControlSequence code ∧ text = code ++ after := by
  constructor
  · intro h
    unfold afterControlSequence? at h
    split at h
    · rename_i rest
      split at h
      · rename_i last behind hdrop
        obtain ⟨hlast, heq⟩ := Option.ite_none_right_eq_some.mp h
        obtain rfl := Option.some.inj heq
        have hcode : IsControlSequence ('\x1b' :: '[' :: (rest.takeWhile isParameter ++
            ((rest.dropWhile isParameter).takeWhile isIntermediate ++ [last]))) :=
          .mk (fun _ ↦ List.mem_takeWhile_imp) (fun _ ↦ List.mem_takeWhile_imp) hlast
        refine ⟨_, hcode, ?_⟩
        rw [List.cons_append, List.cons_append, List.append_assoc, List.append_assoc,
          List.singleton_append, ← hdrop, List.takeWhile_append_dropWhile,
          List.takeWhile_append_dropWhile]
      · cases h
    · cases h
  · rintro ⟨_, ⟨hparameters, hintermediates, hlast⟩, rfl⟩
    simp only [List.cons_append, List.append_assoc, List.nil_append, afterControlSequence?,
      dropWhile_parameters_append hparameters hintermediates hlast, hlast, if_true]

section

variable {code : List Char} {c : Char}

/-- A control sequence is a text with nothing behind the one at its start. -/
theorem isControlSequence_iff : IsControlSequence code ↔ afterControlSequence? code = some [] := by
  rw [afterControlSequence?_eq_some_iff]
  simp only [List.append_nil, exists_eq_right']

instance (code : List Char) : Decidable (IsControlSequence code) :=
  decidable_of_iff _ isControlSequence_iff.symm

theorem IsControlSequence.head?_eq (h : IsControlSequence code) : code.head? = some '\x1b' := by
  cases h
  rfl

/-- Behind its escape character, a control sequence consists of printable ASCII characters. -/
theorem IsControlSequence.toNat_of_mem_tail (h : IsControlSequence code)
    (hc : c ∈ code.tail) : 0x20 ≤ c.toNat ∧ c.toNat ≤ 0x7e := by
  obtain ⟨hparameters, hintermediates, hlast⟩ := h
  rw [List.tail_cons, List.mem_cons, List.mem_append, List.mem_append, List.mem_singleton] at hc
  rcases hc with rfl | hparameter | hintermediate | rfl
  · decide
  · have := isParameter_iff.mp (hparameters c hparameter)
    omega
  · have := isIntermediate_iff.mp (hintermediates c hintermediate)
    omega
  · have := isFinal_iff.mp hlast
    omega

/-- In front of its final character, a control sequence has no other character that could be one but
the bracket. -/
theorem IsControlSequence.not_isFinal_of_mem_dropLast (h : IsControlSequence code)
    (hc : c ∈ code.dropLast) (hbracket : c ≠ '[') : isFinal c = false := by
  obtain ⟨hparameters, hintermediates, -⟩ := h
  rw [← List.append_assoc, ← List.cons_append, ← List.cons_append, List.dropLast_concat,
    List.mem_cons, List.mem_cons, List.mem_append] at hc
  refine Bool.eq_false_iff.mpr fun hfinal ↦ ?_
  have hrange := isFinal_iff.mp hfinal
  rcases hc with rfl | rfl | hparameter | hintermediate
  · exact absurd hfinal (by decide)
  · exact hbracket rfl
  · have := isParameter_iff.mp (hparameters c hparameter)
    omega
  · have := isIntermediate_iff.mp (hintermediates c hintermediate)
    omega

end

/-! ### One pass -/

theorem withoutControlSequences_nil : withoutControlSequences [] = [] := by
  rw [withoutControlSequences]
  rfl

/-- A control sequence is taken away whole. -/
theorem withoutControlSequences_code {code : List Char} (h : IsControlSequence code)
    (rest : List Char) :
    withoutControlSequences (code ++ rest) = withoutControlSequences rest := by
  have hafter : afterControlSequence? (code ++ rest) = some rest :=
    afterControlSequence?_eq_some_iff.mpr ⟨code, h, rfl⟩
  rw [withoutControlSequences]
  split
  · rename_i heq
    rw [hafter] at heq
    rw [Option.some.inj heq]
  · rename_i heq
    rw [hafter] at heq
    cases heq

/-- A character that no control sequence starts with stays. -/
theorem withoutControlSequences_cons {c : Char} {rest : List Char}
    (h : afterControlSequence? (c :: rest) = none) :
    withoutControlSequences (c :: rest) = c :: withoutControlSequences rest := by
  rw [withoutControlSequences]
  split
  · rename_i heq
    rw [h] at heq
    cases heq
  · rfl

theorem afterControlSequence?_of_ne {c : Char} (h : c ≠ '\x1b') (rest : List Char) :
    afterControlSequence? (c :: rest) = none := by
  unfold afterControlSequence?
  split
  · rename_i heq
    exact absurd (List.cons.inj heq).1 h
  · rfl

/-- Nothing is taken from a text without an escape character. -/
theorem withoutControlSequences_of_notMem {text : List Char} (h : '\x1b' ∉ text) :
    withoutControlSequences text = text := by
  induction text with
  | nil => exact withoutControlSequences_nil
  | cons c rest ih =>
    rw [List.mem_cons, not_or] at h
    obtain ⟨hfirst, hrest⟩ := h
    rw [withoutControlSequences_cons (afterControlSequence?_of_ne (Ne.symm hfirst) rest), ih hrest]

/-! ### One text behind the other -/

/-- A control sequence starts in one text and ends in the next. -/
def Straddles (first second : List Char) : Prop :=
  ∃ front back more behind, first = front ++ back ∧ second = more ++ behind ∧ back ≠ [] ∧
    more ≠ [] ∧ IsControlSequence (back ++ more)

section

variable {first second : List Char}

/-- Of two texts the same is taken as of each alone, unless a control sequence is in both. -/
theorem withoutControlSequences_append (h : ¬ Straddles first second) :
    withoutControlSequences (first ++ second) =
      withoutControlSequences first ++ withoutControlSequences second := by
  fun_induction withoutControlSequences first with
  | case1 first after hafter ih =>
    obtain ⟨code, hcode, rfl⟩ := afterControlSequence?_eq_some_iff.mp hafter
    rw [List.append_assoc, withoutControlSequences_code hcode, ih]
    rintro ⟨front, back, more, behind, rfl, hsecond, hboth⟩
    exact h ⟨code ++ front, back, more, behind, (List.append_assoc ..).symm, hsecond, hboth⟩
  | case2 => rfl
  | case3 c rest hnone ih =>
    have hstays : afterControlSequence? (c :: (rest ++ second)) = none := by
      refine Option.eq_none_iff_forall_ne_some.mpr fun after hafter ↦ ?_
      obtain ⟨code, hcode, hwhole⟩ := afterControlSequence?_eq_some_iff.mp hafter
      rw [← List.cons_append] at hwhole
      rcases List.append_eq_append_iff.mp hwhole with ⟨more, rfl, hsecond⟩ | ⟨inside, hfirst, -⟩
      · cases more with
        | nil =>
          rw [List.append_nil] at hcode
          have hall := afterControlSequence?_eq_some_iff.mpr ⟨_, hcode, (List.append_nil _).symm⟩
          rw [hnone] at hall
          cases hall
        | cons d others =>
          exact h ⟨[], c :: rest, d :: others, after, rfl, hsecond, List.cons_ne_nil _ _,
            List.cons_ne_nil _ _, hcode⟩
      · have hinside := afterControlSequence?_eq_some_iff.mpr ⟨code, hcode, hfirst⟩
        rw [hnone] at hinside
        cases hinside
    rw [List.cons_append, withoutControlSequences_cons hstays, ih, List.cons_append]
    rintro ⟨front, back, more, behind, rfl, hsecond, hboth⟩
    exact h ⟨c :: front, back, more, behind, rfl, hsecond, hboth⟩

/-- No control sequence starts in a text without an escape character. -/
theorem not_straddles_of_notMem (h : '\x1b' ∉ first) (second : List Char) :
    ¬ Straddles first second := by
  rintro ⟨front, back, more, behind, rfl, -, hback, -, hcode⟩
  obtain ⟨c, others, rfl⟩ := List.exists_cons_of_ne_nil hback
  obtain rfl : c = '\x1b' := Option.some.inj hcode.head?_eq
  exact h (List.mem_append_right _ List.mem_cons_self)

/-- So nothing is taken from such a text in front of another one. -/
theorem withoutControlSequences_append_of_notMem (h : '\x1b' ∉ first) (second : List Char) :
    withoutControlSequences (first ++ second) = first ++ withoutControlSequences second := by
  rw [withoutControlSequences_append (not_straddles_of_notMem h second),
    withoutControlSequences_of_notMem h]

/-- No control sequence reaches into a text that starts with no printable ASCII character. -/
theorem not_straddles_of_head? (first : List Char)
    (h : ∀ c ∈ second.head?, c.toNat < 0x20 ∨ 0x7e < c.toNat) : ¬ Straddles first second := by
  rintro ⟨front, back, more, behind, -, rfl, hback, hmore, hcode⟩
  obtain ⟨c, others, rfl⟩ := List.exists_cons_of_ne_nil hmore
  have htail : c ∈ (back ++ c :: others).tail := by
    rw [List.tail_append_of_ne_nil hback]
    simp
  have hrange := hcode.toNat_of_mem_tail htail
  have hfirst := h c rfl
  omega

/-- No control sequence reaches over a final character that is not the bracket. -/
theorem not_straddles_of_isFinal {c : Char} (h : isFinal c = true) (hbracket : c ≠ '[')
    (first second : List Char) : ¬ Straddles (first ++ [c]) second := by
  rintro ⟨front, back, more, behind, hfirst, -, hback, hmore, hcode⟩
  have hlast : back.getLast hback = c := by
    have hsame : (first ++ [c]).getLast (by simp) = (front ++ back).getLast (by simp [hback]) := by
      simp only [hfirst]
    rw [List.getLast_concat, List.getLast_append_of_ne_nil _ hback] at hsame
    exact hsame.symm
  have hmem : c ∈ (back ++ more).dropLast := by
    rw [List.dropLast_append_of_ne_nil hmore]
    exact List.mem_append_left _ (hlast ▸ List.getLast_mem hback)
  have hnone := hcode.not_isFinal_of_mem_dropLast hmem hbracket
  rw [h] at hnone
  cases hnone

/-- Nor over the end of a line. -/
theorem withoutControlSequences_lineFeed (line rest : List Char) :
    withoutControlSequences (line ++ '\n' :: rest) =
      withoutControlSequences line ++ '\n' :: withoutControlSequences rest := by
  have happart : ¬ Straddles line ('\n' :: rest) := not_straddles_of_head? line (by simp)
  rw [withoutControlSequences_append happart,
    withoutControlSequences_cons (afterControlSequence?_of_ne (by decide) rest)]

end

/-- Of lines that are all ended, the same is taken as of each of them. -/
theorem withoutControlSequences_flatMap_lineFeed {α : Type} (line : α → List Char)
    (values : List α) :
    withoutControlSequences (values.flatMap fun value ↦ line value ++ ['\n']) =
      values.flatMap fun value ↦ withoutControlSequences (line value) ++ ['\n'] := by
  induction values with
  | nil => exact withoutControlSequences_nil
  | cons value others ih =>
    simp only [List.flatMap_cons, List.append_assoc, List.singleton_append,
      withoutControlSequences_lineFeed, ih]

/-- Of lines with line feeds between them, the same is taken as of each of them. -/
theorem withoutControlSequences_intercalate (lines : List (List Char)) :
    withoutControlSequences (['\n'].intercalate lines) =
      ['\n'].intercalate (lines.map withoutControlSequences) := by
  induction lines with
  | nil => exact withoutControlSequences_nil
  | cons line others ih =>
    cases others with
    | nil =>
      rw [List.map_singleton, List.intercalate_singleton, List.intercalate_singleton]
    | cons second others =>
      rw [List.intercalate_cons_cons, List.append_assoc, List.singleton_append,
        withoutControlSequences_lineFeed, ih]
      simp only [List.map_cons, List.intercalate_cons_cons, List.append_assoc,
        List.singleton_append]

end WatTypes.Text
