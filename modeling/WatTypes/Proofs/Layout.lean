import WatTypes.Proofs.Balance
import WatTypes.Lexeme.Scan

/-!
# Texts that lay out lexemes

A text lays out lexemes (`Lexeme.Layout`) if it spells them one after the other, with blanks between
them where one could not be told from the next. Reading a layout gives its lexemes back
(`readFrom_of_layout`), provided that the parentheses are balanced and do not nest deeper than a
limit allows (`depthBehind?`).
-/

set_option autoImplicit false
set_option relaxedAutoImplicit false

namespace WatTypes

/-! ### Nesting -/

/-- Opening a parenthesis that brings the number of open ones to `depth` is no fault. -/
def NestingLimit.Admits (limit : Option NestingLimit) (depth : Nat) : Prop :=
  ∀ bound ∈ limit, (depth : Int) ≠ bound.depth + 1

instance (limit : Option NestingLimit) (depth : Nat) :
    Decidable (NestingLimit.Admits limit depth) :=
  inferInstanceAs (Decidable (∀ bound ∈ limit, (depth : Int) ≠ bound.depth + 1))

namespace Lexeme

/-- The number of open parentheses behind a lexeme that is met with `depth` open ones, unless it
closes one that was not opened or opens one deeper than the limit admits. -/
def depthPast? (limit : Option NestingLimit) (depth : Nat) : Lexeme → Option Nat
  | .opening => if NestingLimit.Admits limit (depth + 1) then some (depth + 1) else none
  | .closing => if depth = 0 then none else some (depth - 1)
  | _ => some depth

/-- The number of open parentheses behind lexemes, the first of which is met with `depth` open
ones. -/
def depthBehind? (limit : Option NestingLimit) (depth : Nat) (lexemes : List Lexeme) : Option Nat :=
  lexemes.foldlM (depthPast? limit) depth

section Depth

variable {limit : Option NestingLimit} {depth behind : Nat} {lexemes : List Lexeme}

@[simp] theorem depthBehind?_nil : depthBehind? limit depth [] = some depth := rfl

theorem depthBehind?_cons (lexeme : Lexeme) (rest : List Lexeme) :
    depthBehind? limit depth (lexeme :: rest) =
      (depthPast? limit depth lexeme).bind fun past ↦ depthBehind? limit past rest := by
  rw [depthBehind?, List.foldlM_cons]
  rfl

theorem depthBehind?_append (first second : List Lexeme) :
    depthBehind? limit depth (first ++ second) =
      (depthBehind? limit depth first).bind fun behind ↦ depthBehind? limit behind second := by
  rw [depthBehind?, List.foldlM_append]
  rfl

/-- A lexeme opens and closes parentheses as it changes their number. -/
theorem count_of_depthPast? {lexeme : Lexeme} (h : depthPast? limit depth lexeme = some behind) :
    depth + [lexeme].count .opening = behind + [lexeme].count .closing := by
  cases lexeme with
  | opening =>
    obtain ⟨-, heq⟩ := Option.ite_none_right_eq_some.mp h
    cases heq
    rfl
  | closing =>
    obtain ⟨hopen, heq⟩ := Option.ite_none_left_eq_some.mp h
    cases heq
    simp
    omega
  | _ =>
    cases h
    rfl

/-- The number of open parentheses grows by those that are opened and shrinks by those that are
closed. -/
theorem count_of_depthBehind? (h : depthBehind? limit depth lexemes = some behind) :
    depth + lexemes.count .opening = behind + lexemes.count .closing := by
  induction lexemes generalizing depth with
  | nil =>
    cases h
    rfl
  | cons lexeme others ih =>
    rw [depthBehind?_cons] at h
    obtain ⟨past, hpast, hbehind⟩ := Option.bind_eq_some_iff.mp h
    have hfirst := count_of_depthPast? hpast
    have hothers := ih hbehind
    rw [← List.singleton_append, List.count_append, List.count_append]
    omega

/-- Where the number of open parentheses is never negative, no more are closed than opened. -/
theorem count_le_of_isPrefix {front : List Lexeme} (h : depthBehind? limit 0 lexemes = some behind)
    (hfront : front <+: lexemes) : front.count .closing ≤ front.count .opening := by
  obtain ⟨rest, rfl⟩ := hfront
  rw [depthBehind?_append] at h
  obtain ⟨middle, hmiddle, -⟩ := Option.bind_eq_some_iff.mp h
  have hcount := count_of_depthBehind? hmiddle
  omega

theorem depthPast?_of_isPlain {lexeme : Lexeme} (h : lexeme.IsPlain) :
    depthPast? limit depth lexeme = some depth := by
  obtain ⟨hopening, hclosing, -⟩ := h
  cases lexeme <;> first | rfl | contradiction

/-- Lexemes nest as deep as allowed, and close all parentheses that they open. -/
def Nests (limit : Option NestingLimit) (depth : Nat) (lexemes : List Lexeme) : Prop :=
  depthBehind? limit depth lexemes = some depth

theorem nests_nil : Nests limit depth [] := rfl

theorem nests_of_isPlain {lexeme : Lexeme} (h : lexeme.IsPlain) : Nests limit depth [lexeme] := by
  rw [Nests, depthBehind?_cons, depthPast?_of_isPlain h]
  rfl

/-- What nests behind what nests. -/
theorem Nests.append {first second : List Lexeme} (hfirst : Nests limit depth first)
    (hsecond : Nests limit depth second) : Nests limit depth (first ++ second) := by
  rw [Nests, depthBehind?_append, hfirst]
  exact hsecond

/-- Without parentheses everything nests. -/
theorem nests_of_forall_isPlain (h : ∀ lexeme ∈ lexemes, lexeme.IsPlain) :
    Nests limit depth lexemes := by
  induction lexemes with
  | nil => exact nests_nil
  | cons first others ih =>
    exact (nests_of_isPlain (h first List.mem_cons_self)).append
      (ih fun lexeme hmem ↦ h lexeme (List.mem_cons_of_mem first hmem))

/-- What nests one deeper nests in parentheses that are admitted. -/
theorem Nests.parenthesised {inner : List Lexeme} (hadmits : NestingLimit.Admits limit (depth + 1))
    (hinner : Nests limit (depth + 1) inner) : Nests limit depth (parenthesised inner) := by
  rw [Nests, Lexeme.parenthesised, List.cons_append, depthBehind?_cons, depthPast?, if_pos hadmits,
    Option.bind_some, depthBehind?_append, hinner]
  rfl

/-- Lexemes in parentheses end where those inside end, one less deep. -/
theorem depthBehind?_parenthesised_eq_some {inner : List Lexeme}
    (h : depthBehind? limit depth (Lexeme.parenthesised inner) = some behind) :
    NestingLimit.Admits limit (depth + 1) ∧
      ∃ inside, depthBehind? limit (depth + 1) inner = some inside ∧ inside = behind + 1 := by
  rw [Lexeme.parenthesised, List.cons_append, depthBehind?_cons, depthPast?] at h
  by_cases hadmits : NestingLimit.Admits limit (depth + 1)
  · rw [if_pos hadmits, Option.bind_some, depthBehind?_append] at h
    obtain ⟨inside, hinside, hclosing⟩ := Option.bind_eq_some_iff.mp h
    refine ⟨hadmits, inside, hinside, ?_⟩
    rw [depthBehind?_cons, depthPast?] at hclosing
    by_cases hzero : inside = 0
    · rw [if_pos hzero] at hclosing
      cases hclosing
    · rw [if_neg hzero, Option.bind_some, depthBehind?_nil, Option.some.injEq] at hclosing
      omega
  · rw [if_neg hadmits] at h
    cases h

/-- Balanced lexemes end at the depth at which they start. -/
theorem Balanced.depthBehind?_eq (h : Balanced lexemes)
    (hbehind : depthBehind? limit depth lexemes = some behind) : behind = depth := by
  induction h generalizing depth behind with
  | nil => exact (Option.some.inj hbehind).symm
  | plain hplain =>
    rw [nests_of_isPlain hplain] at hbehind
    exact (Option.some.inj hbehind).symm
  | append _ _ ihfirst ihsecond =>
    rw [depthBehind?_append] at hbehind
    obtain ⟨middle, hmiddle, hrest⟩ := Option.bind_eq_some_iff.mp hbehind
    rw [ihsecond hrest, ihfirst hmiddle]
  | parenthesised _ ih =>
    obtain ⟨-, inside, hinside, heq⟩ := depthBehind?_parenthesised_eq_some hbehind
    have hsame := ih hinside
    omega

/-- Of balanced lexemes that nest together each part nests. -/
theorem Balanced.nests_append_iff {first second : List Lexeme} (h : Balanced first) :
    Nests limit depth (first ++ second) ↔ Nests limit depth first ∧ Nests limit depth second := by
  constructor
  · intro hnests
    rw [Nests, depthBehind?_append] at hnests
    obtain ⟨middle, hmiddle, hrest⟩ := Option.bind_eq_some_iff.mp hnests
    have hsame := h.depthBehind?_eq hmiddle
    subst hsame
    exact ⟨hmiddle, hrest⟩
  · rintro ⟨hfirst, hsecond⟩
    exact hfirst.append hsecond

/-- Lexemes nest in parentheses if the parentheses are admitted and they nest one deeper. -/
theorem nests_parenthesised_iff {inner : List Lexeme} :
    Nests limit depth (Lexeme.parenthesised inner) ↔
      NestingLimit.Admits limit (depth + 1) ∧ Nests limit (depth + 1) inner := by
  constructor
  · intro hnests
    obtain ⟨hadmits, inside, hinside, rfl⟩ := depthBehind?_parenthesised_eq_some hnests
    exact ⟨hadmits, hinside⟩
  · rintro ⟨hadmits, hinner⟩
    exact hinner.parenthesised hadmits

/-- Without a limit everything balanced nests. -/
theorem Balanced.nests_none (h : Balanced lexemes) (depth : Nat) :
    Nests none depth lexemes := by
  induction h generalizing depth with
  | nil => exact nests_nil
  | plain hplain => exact nests_of_isPlain hplain
  | append _ _ ihfirst ihsecond => exact (ihfirst depth).append (ihsecond depth)
  | parenthesised _ ih => exact (ih (depth + 1)).parenthesised fun bound hbound ↦ by cases hbound

end Depth

/-! ### Layouts -/

/-- A text that denotes another one between quotation marks: behind the opening mark it is read up
to the closing one, without a fault. -/
def IsLiteralBody (body : List Char) (text : String) : Prop :=
  ∀ ⦃here : Place⦄ ⦃rest⦄, here.rest = body ++ '"' :: rest → ∃ stop, stop.rest = rest ∧
    readString here = ⟨text.toList.flatMap String.utf8EncodeChar, [], true, stop⟩

/-- A text that is read as a single lexeme. -/
inductive Spells : List Char → Lexeme → Prop
  /-- An opening parenthesis. -/
  | opening : Spells ['('] .opening
  /-- A closing parenthesis. -/
  | closing : Spells [')'] .closing
  /-- A word. -/
  | word {c : Char} {cs : List Char} {lexeme : Lexeme} :
    (∀ d ∈ c :: cs, isIdChar d = true) → ofWord (c :: cs) = .ok lexeme → Spells (c :: cs) lexeme
  /-- A string literal. -/
  | string {body : List Char} {text : String} :
    IsLiteralBody body text → Spells ('"' :: body ++ ['"']) (.string text)

/-- Behind a lexeme a text can stand: words are told from what follows, and an opening parenthesis
from the start of a comment. -/
def MayPrecede : Lexeme → List Char → Prop
  | .opening, rest => rest.head? ≠ some ';'
  | .closing, _ => True
  | .string _, _ => True
  | _, rest => ∀ c ∈ rest.head?, isIdChar c = false

/-- A text lays out lexemes. -/
inductive Layout : List Lexeme → List Char → Prop
  /-- The empty text lays out no lexeme. -/
  | nil : Layout [] []
  /-- A blank may stand in front. -/
  | gap {lexemes : List Lexeme} {c : Char} {text : List Char} :
    isGapChar c = true → Layout lexemes text → Layout lexemes (c :: text)
  /-- A lexeme stands in front. -/
  | lexeme {lexeme : Lexeme} {lexemes : List Lexeme} {spelled text : List Char} :
    Spells spelled lexeme → MayPrecede lexeme text → Layout lexemes text →
    Layout (lexeme :: lexemes) (spelled ++ text)

/-! ### Reading a layout -/

/-- The characters of words are none that mean something else. -/
theorem ne_of_isIdChar {c : Char} (h : isIdChar c = true) :
    isGapChar c = false ∧ c ≠ ';' ∧ c ≠ '(' ∧ c ≠ ')' ∧ c ≠ '"' := by
  have hne (d : Char) (hd : isIdChar d = false) : c ≠ d := by
    rintro rfl
    rw [h] at hd
    cases hd
  refine ⟨?_, hne ';' (by decide), hne '(' (by decide), hne ')' (by decide), hne '"' (by decide)⟩
  have hblank := hne ' ' (by decide)
  have htab := hne '\t' (by decide)
  have hfeed := hne '\n' (by decide)
  have hreturn := hne '\r' (by decide)
  simp [isGapChar, hblank, htab, hfeed, hreturn]

/-- A run of characters reaches up to the first one of another kind. -/
theorem takeWhile_append_of_head? {keep : Char → Bool} {run rest : List Char}
    (hrun : ∀ c ∈ run, keep c = true) (hrest : ∀ c ∈ rest.head?, keep c = false) :
    (run ++ rest).takeWhile keep = run ∧ (run ++ rest).dropWhile keep = rest := by
  have hbehind : rest.takeWhile keep = [] ∧ rest.dropWhile keep = rest := by
    cases rest with
    | nil => exact ⟨rfl, rfl⟩
    | cons d others =>
      have hd : ¬ keep d = true := by simp [hrest d rfl]
      exact ⟨List.takeWhile_cons_of_neg hd, List.dropWhile_cons_of_neg hd⟩
  constructor
  · rw [List.takeWhile_append_of_pos hrun, hbehind.1, List.append_nil]
  · rw [List.dropWhile_append_of_pos hrun, hbehind.2]

/-- A word is no parenthesis, no string and not the end of the input. -/
theorem kind_of_ofWord {word : List Char} {lexeme : Lexeme} (h : ofWord word = .ok lexeme) :
    lexeme.IsPlain ∧ ∀ text, lexeme ≠ .string text := by
  rcases ofWord_cases h with ⟨_, -, -, rfl⟩ | ⟨_, -, -, rfl⟩ | ⟨-, rfl⟩ | ⟨-, rfl⟩ |
    ⟨_, _, -, -, rfl⟩ <;> simp [IsPlain]

end Lexeme

namespace Stretch

open Lexeme

variable {file : String} {here : Place} {c : Char} {rest : List Char}

theorem read_of_isGapChar (h : isGapChar c = true) :
    read file here c rest = (.gap, here.past [c] rest) := if_pos h

theorem read_opening (h : rest.head? ≠ some ';') :
    read file here '(' rest = (.opening, here.past ['('] rest) := by
  simp [read, isGapChar, h]

theorem read_closing : read file here ')' rest = (.closing, here.past [')'] rest) := by
  simp [read, isGapChar]

theorem read_string : read file here '"' rest =
    (.events ((readString (here.past ['"'] rest)).events file here.position),
      (readString (here.past ['"'] rest)).stop) := by
  simp [read, isGapChar]

/-- What stands at a place, by its first characters, and the place behind it. -/
inductive IsRead (file : String) (here : Place) : Char → List Char → Stretch × Place → Prop
  /-- A blank. -/
  | blank {c : Char} {rest : List Char} : isGapChar c = true →
    IsRead file here c rest (.gap, here.past [c] rest)
  /-- A line comment. -/
  | lineComment {rest : List Char} : IsRead file here ';' (';' :: rest)
    (.gap, here.past (';' :: ';' :: rest.takeWhile (· ≠ '\n')) (rest.dropWhile (· ≠ '\n')))
  /-- A block comment. -/
  | blockComment {rest inside behind : List Char} :
    blockComment? 0 rest = some (inside, behind) →
    IsRead file here '(' (';' :: rest) (.gap, here.past ('(' :: ';' :: inside) behind)
  /-- A block comment that is not closed. -/
  | openComment {rest : List Char} : IsRead file here '(' (';' :: rest)
    (.events [.fault .unterminatedComment here.position], here.past ('(' :: ';' :: rest) [])
  /-- An opening parenthesis. -/
  | opening {rest : List Char} : IsRead file here '(' rest (.opening, here.past ['('] rest)
  /-- A closing parenthesis. -/
  | closing {rest : List Char} : IsRead file here ')' rest (.closing, here.past [')'] rest)
  /-- A string. -/
  | string {rest : List Char} : IsRead file here '"' rest
    (.events ((readString (here.past ['"'] rest)).events file here.position),
      (readString (here.past ['"'] rest)).stop)
  /-- A word. -/
  | word {c : Char} {rest : List Char} : isIdChar c = true → IsRead file here c rest
    (.events [wordEvent file here.position
        (here.position.afterAll (c :: rest.takeWhile isIdChar)) (c :: rest.takeWhile isIdChar)],
      here.past (c :: rest.takeWhile isIdChar) (rest.dropWhile isIdChar))
  /-- A character that starts nothing. -/
  | unexpected {c : Char} {rest : List Char} : IsRead file here c rest
    (.events [.fault (.unexpectedChar c) here.position], here.past [c] rest)

/-- Whatever is read is one of these. -/
theorem isRead_read (file : String) (here : Place) (c : Char) (rest : List Char) :
    IsRead file here c rest (read file here c rest) := by
  unfold read
  split
  · rename_i hblank
    exact .blank hblank
  split
  · rename_i hcomment
    obtain ⟨rfl, hhead⟩ := hcomment
    obtain ⟨behind, rfl⟩ := List.head?_eq_some_iff.mp hhead
    rw [List.takeWhile_cons_of_pos (by decide), List.dropWhile_cons_of_pos (by decide)]
    exact .lineComment
  split
  · rename_i hcomment
    obtain ⟨rfl, hhead⟩ := hcomment
    obtain ⟨behind, rfl⟩ := List.head?_eq_some_iff.mp hhead
    split
    · rename_i inside after hinside
      exact .blockComment hinside
    · exact .openComment
  split
  · rename_i hopening
    subst hopening
    exact .opening
  split
  · rename_i hclosing
    subst hclosing
    exact .closing
  split
  · rename_i hquote
    subst hquote
    exact .string
  split
  · rename_i hword
    exact .word hword
  · exact .unexpected

/-- A word reaches up to the first character that no word holds. -/
theorem read_word (file : String) (here : Place) {cs : List Char}
    (hword : ∀ d ∈ c :: cs, isIdChar d = true) (hrest : ∀ d ∈ rest.head?, isIdChar d = false) :
    ∃ stop : Place, stop.rest = rest ∧ read file here c (cs ++ rest) =
      (.events [wordEvent file here.position stop.position (c :: cs)], stop) := by
  have hfirst : isIdChar c = true := hword c List.mem_cons_self
  obtain ⟨hgap, hsemicolon, hopening, hclosing, hquote⟩ := ne_of_isIdChar hfirst
  have hinside : ∀ d ∈ cs, isIdChar d = true := fun d hd ↦ hword d (List.mem_cons_of_mem c hd)
  obtain ⟨htake, hdrop⟩ := takeWhile_append_of_head? hinside hrest
  refine ⟨here.past (c :: cs) rest, rfl, ?_⟩
  simp [read, hgap, hsemicolon, hopening, hclosing, hquote, hfirst, htake, hdrop]

end Stretch

namespace Lexeme

open Scan

variable {file : String} {limit : Option NestingLimit}

/-- The bytes of a text denote it. -/
theorem fromUTF8?_utf8EncodeChar (text : String) :
    String.fromUTF8? ⟨(text.toList.flatMap String.utf8EncodeChar).toArray⟩ = some text := by
  have hbytes : (⟨(text.toList.flatMap String.utf8EncodeChar).toArray⟩ : ByteArray) =
      text.toByteArray := by
    rw [← String.utf8Encode_toList, List.utf8Encode]
    apply ByteArray.ext
    rw [← Array.toList_inj, List.toList_data_toByteArray]
  rw [hbytes, String.fromUTF8?, dif_pos text.isValidUTF8]
  rfl

/-- What stands between quotation marks is read as the text that it denotes. -/
theorem Stretch.read_literal {here : Place} {body rest : List Char} {text : String}
    (h : IsLiteralBody body text) :
    ∃ stop, stop.rest = rest ∧ Stretch.read file here '"' (body ++ '"' :: rest) =
      (.events [.token ⟨.string text, .upTo file here.position stop.position⟩], stop) := by
  have hinside : (here.past ['"'] (body ++ '"' :: rest)).rest = body ++ '"' :: rest := rfl
  obtain ⟨stop, hstop, hread⟩ := h hinside
  refine ⟨stop, hstop, ?_⟩
  rw [Stretch.read_string, hread]
  simp only [StringBody.events, fromUTF8?_utf8EncodeChar, List.nil_append, if_true]

/-- An opening parenthesis that the limit admits is a token and no fault. -/
theorem openingEvents_of_admits {depth : Nat} (h : NestingLimit.Admits limit depth)
    (start stop : Position) :
    openingEvents file limit depth start stop = [.token ⟨.opening, .upTo file start stop⟩] := by
  cases limit with
  | none => rfl
  | some bound =>
    obtain ⟨greatest, shown⟩ := bound
    exact if_neg (h _ rfl)

/-- What can stand behind a lexeme that is a word. -/
theorem not_isIdChar_of_mayPrecede {lexeme : Lexeme} {rest : List Char}
    (h : MayPrecede lexeme rest) (hplain : lexeme.IsPlain)
    (hstring : ∀ text, lexeme ≠ .string text) : ∀ c ∈ rest.head?, isIdChar c = false := by
  cases lexeme with
  | opening => exact absurd rfl hplain.1
  | closing => exact absurd rfl hplain.2.1
  | string text => exact absurd rfl (hstring text)
  | _ => exact h

/-- Assumes: the lexeme can stand before what follows, and is allowed at its depth. Where a lexeme
is spelled it is read, and reading goes on behind it. -/
theorem readFrom_of_spells {spelled rest : List Char} {lexeme : Lexeme}
    (h : Spells spelled lexeme) (hrest : MayPrecede lexeme rest) {depth past : Nat}
    (hpast : depthPast? limit depth lexeme = some past) {here : Place}
    (hhere : here.rest = spelled ++ rest) :
    ∃ span stop, stop.rest = rest ∧
      readFrom file limit depth here =
        (readFrom file limit past stop).prepend [.token ⟨lexeme, span⟩] := by
  cases h with
  | opening =>
    obtain ⟨hadmits, heq⟩ := Option.ite_none_right_eq_some.mp hpast
    cases heq
    refine ⟨.upTo file here.position (here.past ['('] rest).position, here.past ['('] rest, rfl, ?_⟩
    have hsource : here.rest = '(' :: rest := hhere
    rw [readFrom_of_cons hsource, Stretch.read_opening hrest]
    simp only [openingEvents_of_admits hadmits]
  | closing =>
    obtain ⟨hopen, heq⟩ := Option.ite_none_left_eq_some.mp hpast
    cases heq
    refine ⟨.upTo file here.position (here.past [')'] rest).position, here.past [')'] rest, rfl, ?_⟩
    have hsource : here.rest = ')' :: rest := hhere
    rw [readFrom_of_cons hsource, Stretch.read_closing]
    simp only [closingEvent, if_neg hopen]
  | @word c cs _ hword hlexeme =>
    obtain ⟨hplain, hstring⟩ := kind_of_ofWord hlexeme
    rw [depthPast?_of_isPlain hplain] at hpast
    cases hpast
    obtain ⟨stop, hstop, hread⟩ :=
      Stretch.read_word file here hword (not_isIdChar_of_mayPrecede hrest hplain hstring)
    have hsource : here.rest = c :: (cs ++ rest) := hhere
    refine ⟨.upTo file here.position stop.position, stop, hstop, ?_⟩
    rw [readFrom_of_cons hsource, hread]
    simp only [wordEvent, hlexeme]
  | @string body text hbody =>
    cases hpast
    obtain ⟨stop, hstop, hread⟩ := @Stretch.read_literal file here body rest text hbody
    refine ⟨.upTo file here.position stop.position, stop, hstop, ?_⟩
    have hsource : here.rest = '"' :: (body ++ '"' :: rest) := by simpa using hhere
    rw [readFrom_of_cons hsource, hread]

/-- Assumes: balanced parentheses that nest as deep as allowed. Reading a layout to its end gives
the lexemes that it lays out. -/
theorem readFrom_of_layout (file : String) {lexemes : List Lexeme} {text : List Char}
    (h : Layout lexemes text) {depth : Nat} (hdepth : depthBehind? limit depth lexemes = some 0)
    {here : Place} (hhere : here.rest = text) :
    ∃ tokens : List Token, ∃ stop, Grammar.lexemesOf tokens = lexemes ∧
      readFrom file limit depth here = ⟨tokens.map .token, stop⟩ := by
  induction h generalizing depth here with
  | nil =>
    cases hdepth
    exact ⟨[], here.position, rfl, by rw [readFrom_of_nil hhere]; rfl⟩
  | @gap lexemes c text hgap _ ih =>
    have hbehind : (here.past [c] text).rest = text := rfl
    obtain ⟨tokens, stop, htokens, hread⟩ := ih hdepth hbehind
    refine ⟨tokens, stop, htokens, ?_⟩
    rw [readFrom_of_cons hhere, Stretch.read_of_isGapChar hgap]
    exact hread
  | lexeme hspells hrest _ ih =>
    rw [depthBehind?_cons] at hdepth
    obtain ⟨past, hpast, hbehind⟩ := Option.bind_eq_some_iff.mp hdepth
    obtain ⟨span, there, hthere, hfirst⟩ := readFrom_of_spells hspells hrest hpast hhere
    obtain ⟨tokens, stop, htokens, hothers⟩ := ih hbehind hthere
    refine ⟨⟨_, span⟩ :: tokens, stop, by rw [Grammar.lexemesOf_cons, htokens], ?_⟩
    rw [hfirst, hothers]
    rfl

/-- Assumes: reading a source from its start gives tokens and no fault. The source is read into
these tokens. -/
theorem read_of_readFrom {source : String} {tokens : List Token} {stop : Position}
    (h : readFrom file limit 0 (.start source) = ⟨tokens.map .token, stop⟩) :
    TokenList.read file limit source = .ok ⟨tokens, .upTo file stop stop⟩ := by
  have hfaults : (Scan.ofSource file limit source).diagnostics file = [] := by
    simp [ofSource, h, Scan.diagnostics, Function.comp_def, Event.diagnostic?]
  simp only [TokenList.read, hfaults]
  simp [ofSource, h, Scan.tokens, Function.comp_def, Event.token?]

/-- Assumes: balanced parentheses that nest as deep as allowed. A source that lays out lexemes is
read without a fault into tokens of these lexemes. -/
theorem read_of_layout (file : String) {lexemes : List Lexeme} {source : String}
    (h : Layout lexemes source.toList) (hdepth : Nests limit 0 lexemes) :
    ∃ tokens, TokenList.read file limit source = .ok tokens ∧
      Grammar.lexemesOf tokens.body = lexemes := by
  have hstart : (Place.start source).rest = source.toList := rfl
  obtain ⟨tokens, stop, htokens, hread⟩ := readFrom_of_layout file h hdepth hstart
  exact ⟨_, read_of_readFrom hread, htokens⟩

end Lexeme

end WatTypes
