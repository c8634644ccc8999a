import WatTypes.Proofs.Layout
import WatTypes.Proofs.Lexical.Syntax

/-!
# Gaps are passed over, and nothing else is

The reader of block comments finds the mark that closes a comment as the grammar of comments has it
(`blockComment?_append`, `exists_commentInside_of_blockComment?`). Hence a gap of blanks and
comments is passed over, in as many steps as it has parts (`readFrom_of_gap`), and what a single
step passes over is a part of a gap (`gapPart_of_read`).
-/

set_option autoImplicit false
set_option relaxedAutoImplicit false

namespace WatTypes

/-! ### Block comments -/

namespace Lexeme

open Syntax

theorem Syntax.CommentInside.ne_nil {inside : List Char} (h : CommentInside inside) :
    inside ≠ [] := by
  cases h <;> simp

/-- A character that starts no mark is passed over inside a comment. -/
theorem blockComment?_cons {c : Char} {rest : List Char} (hopening : ¬ ['(', ';'] <+: c :: rest)
    (hclosing : ¬ [';', ')'] <+: c :: rest) (depth : Nat) :
    blockComment? depth (c :: rest) =
      (blockComment? depth rest).map fun (taken, after) ↦ (c :: taken, after) := by
  have hopen (others : List Char) (hc : c = '(') (hrest : rest = ';' :: others) : False := by
    subst hc hrest
    exact hopening (List.prefix_append ['(', ';'] others)
  have hclose (others : List Char) (hc : c = ';') (hrest : rest = ')' :: others) : False := by
    subst hc hrest
    exact hclosing (List.prefix_append [';', ')'] others)
  rw [blockComment?]
  · exact hopen
  · exact fun others _ ↦ hclose others
  · exact fun _ others _ ↦ hclose others

/-- What is left to be found behind a comment that is closed, `depth` further ones around it. -/
def commentBehind? : Nat → List Char → Option (List Char × List Char)
  | 0, rest => some ([], rest)
  | depth + 1, rest => blockComment? depth rest

/-- The inside of a comment is taken up to the mark that closes it. -/
theorem blockComment?_append {inside : List Char} (h : CommentInside inside) (depth : Nat)
    (rest : List Char) :
    blockComment? depth (inside ++ rest) =
      (commentBehind? depth rest).map fun (taken, after) ↦ (inside ++ taken, after) := by
  induction h generalizing depth rest with
  | close => cases depth <;> rfl
  | @char c inside hopening hclosing hinside ih =>
    have hmark (mark : List Char) (hlength : mark.length = 2)
        (hstarts : mark <+: c :: (inside ++ rest)) : mark <+: c :: inside := by
      have hpositive := List.length_pos_iff.mpr hinside.ne_nil
      apply List.prefix_of_prefix_length_le hstarts (List.prefix_append (c :: inside) rest)
      simp only [hlength, List.length_cons]
      omega
    rw [List.cons_append, blockComment?_cons (fun h ↦ hopening (hmark _ rfl h))
      (fun h ↦ hclosing (hmark _ rfl h)), ih, Option.map_map]
    rfl
  | @nested inner inside _ _ ihinner ihinside =>
    have hnested : blockComment? depth ('(' :: ';' :: inner ++ inside ++ rest) =
        (blockComment? (depth + 1) (inner ++ (inside ++ rest))).map
          fun (taken, after) ↦ ('(' :: ';' :: taken, after) := by
      rw [← List.append_assoc]
      rfl
    rw [hnested, ihinner, commentBehind?, ihinside, Option.map_map, Option.map_map]
    apply congrArg (Option.map · _)
    funext found
    simp

/-- A block comment is taken whole. -/
theorem blockComment?_of_commentInside {inside : List Char} (h : CommentInside inside)
    (rest : List Char) : blockComment? 0 (inside ++ rest) = some (inside, rest) := by
  simp [blockComment?_append h, commentBehind?]

/-- What is taken as a comment closes this comment and those around it. -/
theorem exists_commentInside_of_blockComment? {depth : Nat} {cs taken after : List Char}
    (h : blockComment? depth cs = some (taken, after)) :
    ∃ insides : List (List Char), insides.length = depth + 1 ∧
      (∀ inside ∈ insides, CommentInside inside) ∧ insides.flatten = taken := by
  fun_induction blockComment? depth cs generalizing taken after with
  | case1 => cases h
  | case2 depth rest ih =>
    obtain ⟨⟨found, behind⟩, hfound, heq⟩ := Option.map_eq_some_iff.mp h
    cases heq
    obtain ⟨insides, hlength, hinsides, rfl⟩ := ih hfound
    obtain ⟨inner, others, rfl⟩ := List.exists_cons_of_length_eq_add_one hlength
    rw [List.length_cons, Nat.add_right_cancel_iff] at hlength
    obtain ⟨inside, others, rfl⟩ := List.exists_cons_of_length_eq_add_one hlength
    simp only [List.forall_mem_cons] at hinsides
    obtain ⟨hinner, hinside, hothers⟩ := hinsides
    refine ⟨('(' :: ';' :: inner ++ inside) :: others, hlength, ?_, by simp⟩
    exact List.forall_mem_cons.mpr ⟨.nested hinner hinside, hothers⟩
  | case3 rest =>
    cases h
    exact ⟨[[';', ')']], rfl, List.forall_mem_singleton.mpr .close, rfl⟩
  | case4 depth rest ih =>
    obtain ⟨⟨found, behind⟩, hfound, heq⟩ := Option.map_eq_some_iff.mp h
    cases heq
    obtain ⟨insides, hlength, hinsides, rfl⟩ := ih hfound
    exact ⟨[';', ')'] :: insides, by rw [List.length_cons, hlength],
      List.forall_mem_cons.mpr ⟨.close, hinsides⟩, rfl⟩
  | case5 depth c rest hopening hlast hclosing ih =>
    obtain ⟨⟨found, behind⟩, hfound, heq⟩ := Option.map_eq_some_iff.mp h
    cases heq
    have hwhole := append_of_blockComment? hfound
    obtain ⟨insides, hlength, hinsides, rfl⟩ := ih hfound
    obtain ⟨inside, others, rfl⟩ := List.exists_cons_of_length_eq_add_one hlength
    obtain ⟨hinside, hothers⟩ := List.forall_mem_cons.mp hinsides
    refine ⟨(c :: inside) :: others, hlength, List.forall_mem_cons.mpr ⟨?_, hothers⟩, rfl⟩
    subst hwhole
    apply CommentInside.char _ _ hinside
    · rintro ⟨others, hothers⟩
      cases hothers
      exact hopening _ rfl rfl
    · rintro ⟨others, hothers⟩
      cases hothers
      cases depth with
      | zero => exact hlast _ rfl rfl rfl
      | succ depth => exact hclosing _ _ rfl rfl rfl

/-- What is taken as a block comment is one. -/
theorem commentInside_of_blockComment? {cs inside after : List Char}
    (h : blockComment? 0 cs = some (inside, after)) : CommentInside inside := by
  obtain ⟨insides, hlength, hinsides, rfl⟩ := exists_commentInside_of_blockComment? h
  obtain ⟨only, rfl⟩ := List.length_eq_one_iff.mp hlength
  rw [List.flatten_singleton]
  exact List.forall_mem_singleton.mp hinsides

end Lexeme

open Lexeme Lexeme.Syntax Scan

/-! ### Parts of gaps -/

/-- A blank or a comment, `behind` being the source behind it. -/
inductive GapPart (behind : List Char) : List Char → Prop
  /-- A blank. -/
  | blank {c : Char} : isGapChar c = true → GapPart behind [c]
  /-- A line comment up to the end of its line. -/
  | lineComment {comment : List Char} : '\n' ∉ comment → behind = [] ∨ behind.head? = some '\n' →
    GapPart behind (';' :: ';' :: comment)
  /-- A block comment. -/
  | blockComment {inside : List Char} : CommentInside inside →
    GapPart behind ('(' :: ';' :: inside)

namespace Stretch

variable {file : String} {here stop : Place} {c : Char} {rest : List Char}

/-- A part of a gap is passed over. -/
theorem read_of_gapPart (file : String) (here : Place) {part : List Char} (h : GapPart rest part) :
    ∃ c cs, part = c :: cs ∧ read file here c (cs ++ rest) = (.gap, here.past part rest) := by
  cases h with
  | @blank c hc => exact ⟨c, [], rfl, read_of_isGapChar hc⟩
  | @lineComment comment hcomment hrest =>
    refine ⟨';', ';' :: comment, rfl, ?_⟩
    have hinside : ∀ c ∈ ';' :: comment, decide (c ≠ '\n') = true := by
      refine List.forall_mem_cons.mpr ⟨by decide, fun c hc ↦ decide_eq_true ?_⟩
      exact fun hfeed ↦ hcomment (hfeed ▸ hc)
    have hend : ∀ c ∈ rest.head?, decide (c ≠ '\n') = false := by
      intro c hc
      rcases hrest with rfl | hfeed
      · cases hc
      · rw [hfeed] at hc
        cases hc
        decide
    obtain ⟨htake, hdrop⟩ := takeWhile_append_of_head? hinside hend
    unfold read
    rw [if_neg (by decide), if_pos ⟨rfl, rfl⟩, htake, hdrop]
  | @blockComment inside hinside =>
    refine ⟨'(', ';' :: inside, rfl, ?_⟩
    simp [read, isGapChar, blockComment?_of_commentInside hinside]

/-- What is passed over is a part of a gap. -/
theorem gapPart_of_read (h : read file here c rest = (.gap, stop)) :
    ∃ part, part ++ stop.rest = c :: rest ∧ stop.position = here.position.afterAll part ∧
      GapPart stop.rest part := by
  have hread := isRead_read file here c rest
  rw [h] at hread
  cases hread with
  | blank hblank => exact ⟨[c], rfl, rfl, .blank hblank⟩
  | @lineComment behind =>
    refine ⟨_, congrArg (';' :: ';' :: ·) List.takeWhile_append_dropWhile, rfl, ?_⟩
    apply GapPart.lineComment
    · intro hfeed
      have hall := List.all_eq_true.mp (List.all_takeWhile (l := behind) (p := (· ≠ '\n'))) _ hfeed
      simp at hall
    · have hhalt := List.head?_dropWhile_not (· ≠ '\n') behind
      cases hdrop : behind.dropWhile (· ≠ '\n') with
      | nil => exact .inl rfl
      | cons d others =>
        rw [hdrop] at hhalt
        exact .inr (congrArg some (by simpa using hhalt))
  | blockComment hinside =>
    refine ⟨_, ?_, rfl, .blockComment (commentInside_of_blockComment? hinside)⟩
    exact congrArg ('(' :: ';' :: ·) (append_of_blockComment? hinside)

end Stretch

/-! ### Whole gaps -/

section Gaps

variable {file : String} {limit : Option NestingLimit} {depth : Nat} {here : Place}
  {rest : List Char}

/-- Reading goes on behind a part of a gap. -/
theorem readFrom_of_gapPart {part : List Char} (h : GapPart rest part)
    (hhere : here.rest = part ++ rest) :
    readFrom file limit depth here = readFrom file limit depth (here.past part rest) := by
  obtain ⟨c, cs, rfl, hread⟩ := Stretch.read_of_gapPart file here h
  have hsource : here.rest = c :: (cs ++ rest) := hhere
  rw [readFrom_of_cons hsource, hread]

/-- Reading goes on behind a gap. -/
theorem readFrom_of_gap {isLast : Bool} {gap : List Char} (h : Gap isLast gap)
    (hlast : isLast = true → rest = []) (hhere : here.rest = gap ++ rest) :
    ∃ stop : Place, stop.rest = rest ∧
      readFrom file limit depth here = readFrom file limit depth stop := by
  induction h generalizing here with
  | nil => exact ⟨here, hhere, rfl⟩
  | @blank c others hc _ ih =>
    have hbehind : (here.past [c] (others ++ rest)).rest = others ++ rest := rfl
    obtain ⟨stop, hstop, hothers⟩ := ih hbehind
    exact ⟨stop, hstop, (readFrom_of_gapPart (.blank hc) hhere).trans hothers⟩
  | @lineComment comment others hcomment _ ih =>
    let halt := here.past (';' :: ';' :: comment) ('\n' :: (others ++ rest))
    have hbehind : (halt.past ['\n'] (others ++ rest)).rest = others ++ rest := rfl
    obtain ⟨stop, hstop, hothers⟩ := ih hbehind
    refine ⟨stop, hstop, ?_⟩
    rw [readFrom_of_gapPart (.lineComment hcomment (.inr rfl)) (by simpa using hhere),
      readFrom_of_gapPart (.blank (by decide)) rfl]
    exact hothers
  | @lastComment comment hend hcomment =>
    have hrest := hlast hend
    subst hrest
    exact ⟨_, rfl, readFrom_of_gapPart (.lineComment hcomment (.inl rfl)) hhere⟩
  | @blockComment inside others hinside _ ih =>
    have hbehind : (here.past ('(' :: ';' :: inside) (others ++ rest)).rest = others ++ rest := rfl
    obtain ⟨stop, hstop, hothers⟩ := ih hbehind
    refine ⟨stop, hstop, (readFrom_of_gapPart (.blockComment hinside) ?_).trans hothers⟩
    simpa using hhere

/-- A part of a gap and the gap behind it are a gap.
Assumes: what is behind both does not continue a line comment. -/
theorem GapPart.append {isLast : Bool} {part gap : List Char} (rest : List Char)
    (hpart : GapPart (gap ++ rest) part) (hgap : Gap isLast gap)
    (hrest : rest.head? ≠ some '\n') (hlast : rest = [] → isLast = true) :
    Gap isLast (part ++ gap) := by
  cases hpart with
  | blank hc => exact .blank hc hgap
  | blockComment hinside => exact .blockComment hinside hgap
  | @lineComment comment hcomment hend =>
    cases hgap with
    | nil =>
      rw [List.append_nil]
      refine .lastComment (hlast ?_) hcomment
      exact hend.resolve_right hrest
    | @blank c others hc hothers =>
      have hfeed : c = '\n' := by simpa using hend
      rw [hfeed]
      exact .lineComment hcomment hothers
    | lineComment _ _ => simp at hend
    | lastComment _ _ => simp at hend
    | blockComment _ _ => simp at hend

end Gaps

end WatTypes
