import WatTypes.Proofs.Tiling
import WatTypes.Tree.Relocation

/-!
# The tokens of a text, place by place

From a position on, a text has certain tokens if it is made up of parts of gaps and of slices that
spell their lexemes, each standing before something that does not continue it (`Tokenized`). A
source is read into tokens exactly if it has them from its first position on, they nest, and the
input ends behind it (`read_eq_ok_iff_tokenized`). The relation says nothing of what stands in
front, and so it carries facts about texts that reading, which counts parentheses on its way, would
have to be followed through for.
-/

set_option autoImplicit false
set_option relaxedAutoImplicit false

namespace WatTypes

open Grammar Lexeme Lexeme.Syntax Scan

/-! ### Stretches -/

namespace Stretch

variable {file : String} {here stop : Place} {c : Char} {rest : List Char}

/-- What is read as an opening parenthesis does not start a comment. -/
theorem head?_ne_of_read (h : read file here '(' rest = (.opening, stop)) :
    rest.head? ≠ some ';' := by
  intro hcomment
  unfold read at h
  rw [if_neg (by decide), if_neg (by simp), if_pos ⟨rfl, hcomment⟩] at h
  split at h <;> cases h

/-- A token of a stretch can stand before what follows it. -/
theorem mayPrecede_of_read {events : List Event}
    (h : read file here c rest = (.events events, stop)) {token : Token}
    (htoken : .token token ∈ events) : MayPrecede token.lexeme stop.rest := by
  have hread := isRead_read file here c rest
  rw [h] at hread
  cases hread with
  | openComment | unexpected => simp at htoken
  | string =>
    rcases List.mem_append.mp htoken with hfault | htoken
    · cases token?_of_mem_faults hfault
    split at htoken
    · split at htoken
      · cases List.mem_singleton.mp htoken
        trivial
      · simp at htoken
    · simp at htoken
  | word hfirst =>
    rw [wordEvent] at htoken
    split at htoken
    · rename_i lexeme hlexeme
      cases List.mem_singleton.mp htoken
      have hhalt : ∀ d ∈ (rest.dropWhile isIdChar).head?, isIdChar d = false := by
        intro d hd
        have := List.head?_dropWhile_not isIdChar rest
        rw [Option.mem_def.mp hd] at this
        exact this
      rcases ofWord_cases hlexeme with ⟨_, -, -, rfl⟩ | ⟨_, -, -, rfl⟩ | ⟨-, rfl⟩ | ⟨-, rfl⟩ |
        ⟨_, _, -, -, rfl⟩ <;> exact hhalt
    · simp at htoken

/-- Assumes: a single token is read, and what is left is behind a slice. The token reaches over the
slice. -/
theorem eq_past_of_read {token : Token} {slice : List Char}
    (h : read file here c rest = (.events [.token token], stop))
    (hwhole : c :: rest = slice ++ stop.rest) :
    stop = here.past slice stop.rest ∧
      token.span = .upTo file here.position (here.position.afterAll slice) := by
  have hsingle : read file here c rest = (.events ([token].map .token), stop) := h
  obtain ⟨found, lexeme, hfound, hstop, -, htoken⟩ := spells_of_read hsingle
  have hsame : found = slice := List.append_cancel_right (hfound.trans hwhole)
  rw [hsame] at hstop
  cases htoken
  constructor
  · rw [Place.past, ← hstop]
  · rw [hstop]

end Stretch

/-! ### Tokens from a position on -/

/-- From a position on, a text is made up of parts of gaps and of slices that spell the lexemes of
tokens, each at its span and before something that it can stand before. -/
inductive Tokenized (file : String) : Position → List Char → List Token → Prop
  /-- Nothing. -/
  | nil {here : Position} : Tokenized file here [] []
  /-- A part of a gap in front. -/
  | gapPart {here : Position} {part rest : List Char} {tokens : List Token} : GapPart rest part →
    Tokenized file (here.afterAll part) rest tokens → Tokenized file here (part ++ rest) tokens
  /-- A token in front. -/
  | token {here : Position} {slice rest : List Char} {lexeme : Lexeme} {tokens : List Token} :
    Spells slice lexeme → MayPrecede lexeme rest →
    Tokenized file (here.afterAll slice) rest tokens →
    Tokenized file here (slice ++ rest)
      (⟨lexeme, .upTo file here (here.afterAll slice)⟩ :: tokens)

section Reading

variable {file : String} {limit : Option NestingLimit} {depth : Nat} {tokens : List Token}

/-- Assumes: a single token is read of a slice. Reading goes on behind the slice, and the token
reaches over it. -/
theorem readFrom_of_read_token {here : Position} {c : Char} {others slice rest : List Char}
    {lexeme : Lexeme} {span : Span} {stop : Place}
    (hread : Stretch.read file ⟨here, c :: others⟩ c others =
      (.events [.token ⟨lexeme, span⟩], stop))
    (hwhole : c :: others = slice ++ rest) (hstop : stop.rest = rest) :
    readFrom file limit depth ⟨here, slice ++ rest⟩ =
      (readFrom file limit depth ⟨here.afterAll slice, rest⟩).prepend
        [.token ⟨lexeme, .upTo file here (here.afterAll slice)⟩] := by
  subst hstop
  obtain ⟨hpast, hspan⟩ := Stretch.eq_past_of_read hread hwhole
  rw [← hwhole, readFrom_of_cons rfl, hread]
  simp only at hspan ⊢
  rw [hspan]
  conv_lhs => rw [hpast]
  rfl

/-- Assumes: a lexeme that is admitted at its depth is spelled in front of what it can stand before.
It is read at its span, and reading goes on behind it. -/
theorem Lexeme.readFrom_past_of_spells {slice rest : List Char} {lexeme : Lexeme}
    (h : Spells slice lexeme) (hrest : MayPrecede lexeme rest) {past : Nat}
    (hpast : depthPast? limit depth lexeme = some past) (here : Position) :
    readFrom file limit depth ⟨here, slice ++ rest⟩ =
      (readFrom file limit past ⟨here.afterAll slice, rest⟩).prepend
        [.token ⟨lexeme, .upTo file here (here.afterAll slice)⟩] := by
  cases h with
  | opening =>
    obtain ⟨hadmits, heq⟩ := Option.ite_none_right_eq_some.mp hpast
    cases heq
    have hsource : (Place.mk here (['('] ++ rest)).rest = '(' :: rest := rfl
    rw [readFrom_of_cons hsource, Stretch.read_opening hrest]
    simp only [openingEvents_of_admits hadmits]
    rfl
  | closing =>
    obtain ⟨hopen, heq⟩ := Option.ite_none_left_eq_some.mp hpast
    cases heq
    have hsource : (Place.mk here ([')'] ++ rest)).rest = ')' :: rest := rfl
    rw [readFrom_of_cons hsource, Stretch.read_closing]
    simp only [closingEvent, if_neg hopen]
    rfl
  | @word c cs _ hword hlexeme =>
    obtain ⟨hplain, hstring⟩ := kind_of_ofWord hlexeme
    rw [depthPast?_of_isPlain hplain] at hpast
    cases hpast
    obtain ⟨stop, hstop, hread⟩ := Stretch.read_word file ⟨here, c :: cs ++ rest⟩ hword
      (not_isIdChar_of_mayPrecede hrest hplain hstring)
    simp only [wordEvent, hlexeme] at hread
    exact readFrom_of_read_token hread rfl hstop
  | @string body text hbody =>
    cases hpast
    obtain ⟨stop, hstop, hread⟩ :=
      @Stretch.read_literal file ⟨here, '"' :: (body ++ '"' :: rest)⟩ body rest text hbody
    exact readFrom_of_read_token hread (by simp) hstop

/-- Assumes: parentheses that are all closed and nest as deep as allowed. Reading a text from a
position on gives the tokens that it has there. -/
theorem readFrom_of_tokenized {here : Position} {text : List Char}
    (h : Tokenized file here text tokens)
    (hdepth : depthBehind? limit depth (lexemesOf tokens) = some 0) :
    readFrom file limit depth ⟨here, text⟩ = ⟨tokens.map .token, here.afterAll text⟩ := by
  induction h generalizing depth with
  | nil =>
    cases hdepth
    exact readFrom_of_nil rfl
  | gapPart hpart _ ih =>
    rw [readFrom_of_gapPart hpart rfl, Place.past, ih hdepth, Position.afterAll_append]
  | token hspells hrest _ ih =>
    rw [lexemesOf_cons, depthBehind?_cons] at hdepth
    obtain ⟨past, hpast, hbehind⟩ := Option.bind_eq_some_iff.mp hdepth
    rw [readFrom_past_of_spells hspells hrest hpast, ih hbehind, Position.afterAll_append]
    rfl

/-- Assumes: reading from a place on gives tokens and no fault. The text there has these tokens. -/
theorem tokenized_of_readFrom {here : Place}
    (h : (readFrom file limit depth here).events = tokens.map .token) :
    Tokenized file here.position here.rest tokens := by
  fun_induction readFrom file limit depth here generalizing tokens with
  | case1 depth here hrest =>
    obtain ⟨rfl, -⟩ := eq_of_endEvents h
    rw [hrest]
    exact .nil
  | case2 depth here c rest hrest stop hread ih =>
    obtain ⟨part, hwhole, hstop, hpart⟩ := Stretch.gapPart_of_read hread
    rw [hrest, ← hwhole]
    exact .gapPart hpart (hstop ▸ ih h)
  | case3 depth here c rest hrest stop hread ih =>
    obtain ⟨rfl, rfl⟩ := Stretch.opening_of_read hread
    obtain ⟨left, right, rfl, hleft, hright⟩ := List.map_eq_append_iff.mp h.symm
    obtain ⟨rfl, -⟩ := eq_of_openingEvents hleft.symm
    rw [hrest]
    exact .token .opening (Stretch.head?_ne_of_read hread) (ih hright.symm)
  | case4 depth here c rest hrest stop hread ih =>
    obtain ⟨rfl, rfl⟩ := Stretch.closing_of_read hread
    obtain ⟨left, right, rfl, hleft, hright⟩ := List.map_eq_append_iff.mp h.symm
    obtain ⟨rfl, -⟩ := eq_of_closingEvent hleft.symm
    rw [hrest]
    exact .token .closing trivial (ih hright.symm)
  | case5 depth here c rest hrest events stop hread ih =>
    obtain ⟨left, right, rfl, rfl, hright⟩ := List.map_eq_append_iff.mp h.symm
    obtain ⟨slice, lexeme, hwhole, hstop, hspells, rfl⟩ := Stretch.spells_of_read hread
    have hrests := Stretch.mayPrecede_of_read hread (List.mem_map_of_mem List.mem_cons_self)
    have hothers := ih hright.symm
    rw [hstop] at hothers
    rw [hrest, ← hwhole, hstop]
    exact .token hspells hrests hothers

/-- Assumes: positions are shifted alike from one character to the next, and spans with them. At a
shifted position a text has the same tokens, with their spans moved. -/
theorem Tokenized.relocated {here : Position} {text : List Char}
    (h : Tokenized file here text tokens)
    {again : String} {shift : Position → Position} {move : Span → Span}
    (hshift : ∀ here taken, (shift here).afterAll taken = shift (here.afterAll taken))
    (hmove : ∀ first stop, move (.upTo file first stop) = .upTo again (shift first) (shift stop)) :
    Tokenized again (shift here) text (tokens.map (Token.relocated move)) := by
  induction h with
  | nil => exact .nil
  | gapPart hpart _ ih => exact .gapPart hpart (hshift _ _ ▸ ih)
  | @token here slice rest lexeme tokens hspells hrest _ ih =>
    rw [List.map_cons, Token.relocated, hmove, ← hshift here slice]
    exact .token hspells hrest (hshift _ _ ▸ ih)

/-- A source is read into tokens exactly if it has them from its first position on, they nest, and
the input ends behind it. -/
theorem read_eq_ok_iff_tokenized {source : String} {tokens : TokenList} :
    TokenList.read file limit source = .ok tokens ↔
      Tokenized file .first source.toList tokens.body ∧ Nests limit 0 (lexemesOf tokens.body) ∧
        tokens.stop = .upTo file (Position.first.afterAll source.toList)
          (Position.first.afterAll source.toList) := by
  constructor
  · intro h
    have hnests := (scanned_of_read h).depthBehind
    obtain ⟨hclean, rfl⟩ := read_eq_ok_iff.mp h
    have htokenized := tokenized_of_readFrom (map_token_of_diagnostic? hclean)
    refine ⟨htokenized, hnests, ?_⟩
    rw [Scan.tokens, ofSource, stop_readFrom]
    rfl
  · obtain ⟨body, stop⟩ := tokens
    rintro ⟨htokenized, hnests, rfl⟩
    exact read_of_readFrom (readFrom_of_tokenized htokenized hnests)

end Reading

end WatTypes
