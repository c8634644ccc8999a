import WatTypes.Proofs.Lexical.Gap
import WatTypes.Proofs.Lexical.Offset
import WatTypes.Proofs.Lexical.Slice

/-!
# Tokens tile their source

The spans of the tokens of a source cover slices of it, one behind the other, with nothing but
blanks and comments before, between and behind them (`Tiles`). Each slice shows its token: it is the
parenthesis, or it is read as the same lexeme where it stands alone (`ReadsAs`). The input ends
behind its last character, and the parentheses are balanced (`tiles_of_read`).

Reading carries along how much of the source has been read; each step either passes over a part of a
gap, which joins the gap in front of the next token (`Tiles.gapPart`), or gives a token of what it
took (`Tiles.token`).
-/

set_option autoImplicit false
set_option relaxedAutoImplicit false

namespace WatTypes

open Grammar Lexeme Lexeme.Syntax Scan

/-! ### Slices and gaps by turns -/

/-- A slice of a source is the parenthesis that a lexeme is, or is read as the lexeme alone. -/
def ReadsAs (slice : List Char) : Lexeme → Prop
  | .opening => slice = ['(']
  | .closing => slice = [')']
  | lexeme => ∀ file limit, ∃ tokens,
    TokenList.read file limit (String.ofList slice) = .ok tokens ∧
      lexemesOf tokens.body = [lexeme]

/-- From an offset on, a text is a gap, and then by turns a slice that a token covers, and that
shows its lexeme, and a gap. -/
inductive Tiles (shows : List Char → Lexeme → Prop) (file : String) (text : List Char) :
    Nat → List Token → Prop
  /-- The last gap. -/
  | nil {start : Nat} : Gap true (text.drop start) → Tiles shows file text start []
  /-- A gap, and a token behind it. -/
  | cons {start first last : Nat} {token : Token} {others : List Token} :
    start ≤ first → Gap false (text.extract start first) →
    token.span.Covers file text first last → shows (text.extract first (last + 1)) token.lexeme →
    Tiles shows file text (last + 1) others → Tiles shows file text start (token :: others)

section Tiles

variable {shows other : List Char → Lexeme → Prop} {file : String} {text : List Char} {start : Nat}
  {tokens : List Token}

/-- What shows a lexeme may be weakened. -/
theorem Tiles.mono (h : Tiles shows file text start tokens)
    (himp : ∀ slice lexeme, shows slice lexeme → other slice lexeme) :
    Tiles other file text start tokens := by
  induction h with
  | nil hgap => exact .nil hgap
  | cons hstart hgap hcovers hshows _ ih =>
    exact .cons hstart hgap hcovers (himp _ _ hshows) ih

end Tiles

/-! ### What is spelled -/

section Spells

variable {slice : List Char} {lexeme : Lexeme}

/-- At the end of a text everything can stand. -/
theorem Lexeme.mayPrecede_nil (lexeme : Lexeme) : MayPrecede lexeme [] := by
  cases lexeme <;> simp [MayPrecede]

/-- What spells a lexeme is read as it alone. -/
theorem readsAs_of_spells (h : Spells slice lexeme) : ReadsAs slice lexeme := by
  have halone (hplain : lexeme.IsPlain) (file : String) (limit : Option NestingLimit) :
      ∃ tokens, TokenList.read file limit (String.ofList slice) = .ok tokens ∧
        lexemesOf tokens.body = [lexeme] := by
    have hlayout : Layout [lexeme] (slice ++ []) := .lexeme h (mayPrecede_nil lexeme) .nil
    apply read_of_layout file _ (nests_of_isPlain hplain)
    simpa using hlayout
  cases h with
  | opening | closing => rfl
  | word hword hlexeme =>
    obtain ⟨hplain, -⟩ := kind_of_ofWord hlexeme
    cases lexeme with
    | opening => exact absurd rfl hplain.1
    | closing => exact absurd rfl hplain.2.1
    | _ => exact halone hplain
  | string _ => exact halone (by simp [IsPlain])

/-- What spells a lexeme starts and ends with characters that end no line. -/
theorem Lexeme.Spells.ends (h : Spells slice lexeme) :
    slice.head? ≠ some '\n' ∧ ∃ front c, slice = front ++ [c] ∧ c ≠ '\n' := by
  cases h with
  | opening => exact ⟨by decide, [], '(', rfl, by decide⟩
  | closing => exact ⟨by decide, [], ')', rfl, by decide⟩
  | @word c cs _ hword _ =>
    have hfeed (d : Char) (hd : d ∈ c :: cs) : d ≠ '\n' := by
      rintro rfl
      have := hword '\n' hd
      contradiction
    refine ⟨fun h ↦ hfeed c List.mem_cons_self (Option.some.inj h), _, _,
      (List.dropLast_append_getLast (List.cons_ne_nil c cs)).symm, ?_⟩
    exact hfeed _ (List.getLast_mem _)
  | @string body _ _ => exact ⟨by simp, '"' :: body, '"', rfl, by decide⟩

end Spells

/-! ### Reading a source -/

/-- The slice of a text from behind some characters is the start of what follows them. -/
theorem extract_append_left (before behind : List Char) (count : Nat) :
    (before ++ behind).extract before.length (before.length + count) = behind.take count := by
  rw [List.extract_eq_take_drop, List.drop_left, Nat.add_sub_cancel_left]

section Source

variable {file : String} {limit : Option NestingLimit} {depth : Nat} {tokens : List Token}
  {before rest : List Char}

/-- A part of a gap in front of the first gap. -/
theorem Tiles.gapPart {part : List Char} (hpart : GapPart rest part)
    (h : Tiles Spells file (before ++ part ++ rest) (before ++ part).length tokens) :
    Tiles Spells file (before ++ part ++ rest) before.length tokens := by
  cases h with
  | nil hgap =>
    rw [List.drop_left] at hgap
    refine .nil ?_
    rw [List.append_assoc, List.drop_left]
    apply GapPart.append [] _ hgap (by simp) fun _ ↦ rfl
    rwa [List.append_nil]
  | @cons _ first last token others hstart hgap hcovers hspells hothers =>
    obtain ⟨skipped, rfl⟩ := Nat.exists_eq_add_of_le hstart
    have hinside := hcovers.inside
    have hordered := hcovers.ordered
    simp only [List.length_append] at hinside hordered
    have hslice : ((before ++ part ++ rest).extract ((before ++ part).length + skipped)
        (last + 1)).head? = (rest.drop skipped).head? := by
      rw [List.extract_eq_take_drop, List.drop_length_add_append, List.head?_take, if_neg]
      simp only [List.length_append]
      omega
    rw [extract_append_left] at hgap
    refine .cons (by simp only [List.length_append]; omega) ?_ hcovers hspells hothers
    have hwhole : (before ++ part ++ rest).extract before.length
        ((before ++ part).length + skipped) = part ++ rest.take skipped := by
      rw [List.append_assoc, List.length_append, Nat.add_assoc, extract_append_left,
        List.take_length_add_append]
    rw [hwhole]
    apply GapPart.append (rest.drop skipped) _ hgap
    · rw [← hslice]
      exact hspells.ends.1
    · intro hnil
      have hlength := List.drop_eq_nil_iff.mp hnil
      omega
    · rwa [List.take_append_drop]

/-- Assumes: a lexeme is spelled by the characters from one place to another, and the position of
the first place is behind what has been read. Its token in front of the first gap. -/
theorem Tiles.token {here stop : Place} {slice : List Char} {lexeme : Lexeme}
    (hspells : Spells slice lexeme) (hwhole : slice ++ stop.rest = here.rest)
    (hposition : here.position = Position.first.afterAll before)
    (hstop : stop.position = here.position.afterAll slice)
    (h : stop.position = Position.first.afterAll (before ++ slice) →
      Tiles Spells file (before ++ slice ++ stop.rest) (before ++ slice).length tokens) :
    Tiles Spells file (before ++ here.rest) before.length
      (⟨lexeme, .upTo file here.position stop.position⟩ :: tokens) := by
  have hbehind : stop.position = Position.first.afterAll (before ++ slice) := by
    rw [hstop, hposition, Position.afterAll_append]
  have hothers := h hbehind
  obtain ⟨-, front, c, rfl, hfeed⟩ := hspells.ends
  rw [← hwhole, ← List.append_assoc, hposition, hbehind]
  have hgap : Gap false
      ((before ++ (front ++ [c]) ++ stop.rest).extract before.length before.length) := by
    simpa using Gap.nil
  have hslice : (before ++ (front ++ [c]) ++ stop.rest).extract before.length
      (before.length + front.length + 1) = front ++ [c] := by
    have hlength : before.length + front.length + 1 = before.length + (front ++ [c]).length := by
      rw [List.length_append, List.length_singleton, Nat.add_assoc]
    rw [hlength, List.append_assoc, extract_append_left, List.take_left]
  refine .cons (Nat.le_refl _) hgap (Span.covers_upTo file before front stop.rest hfeed)
    (hslice.symm ▸ hspells) ?_
  simpa [Nat.add_assoc] using hothers

/-- Assumes: no fault is met from a place on, and the position there is behind what has been read.
The tokens tile what is left of the source. -/
theorem tiles_of_readFrom {here : Place}
    (hposition : here.position = Position.first.afterAll before)
    (h : (readFrom file limit depth here).events = tokens.map .token) :
    Tiles Spells file (before ++ here.rest) before.length tokens := by
  fun_induction readFrom file limit depth here generalizing before tokens with
  | case1 depth here hrest =>
    obtain ⟨rfl, -⟩ := eq_of_endEvents h
    refine .nil ?_
    rw [hrest, List.drop_left]
    exact .nil
  | case2 depth here c rest hrest stop hread ih =>
    obtain ⟨part, hwhole, hstop, hpart⟩ := Stretch.gapPart_of_read hread
    rw [hrest, ← hwhole, ← List.append_assoc]
    apply Tiles.gapPart hpart
    apply ih _ h
    rw [hstop, hposition, Position.afterAll_append]
  | case3 depth here c rest hrest stop hread ih =>
    obtain ⟨rfl, rfl⟩ := Stretch.opening_of_read hread
    obtain ⟨left, right, rfl, hleft, hright⟩ := List.map_eq_append_iff.mp h.symm
    obtain ⟨rfl, -⟩ := eq_of_openingEvents hleft.symm
    exact .token .opening hrest.symm hposition rfl fun hstop ↦ ih hstop hright.symm
  | case4 depth here c rest hrest stop hread ih =>
    obtain ⟨rfl, rfl⟩ := Stretch.closing_of_read hread
    obtain ⟨left, right, rfl, hleft, hright⟩ := List.map_eq_append_iff.mp h.symm
    obtain ⟨rfl, -⟩ := eq_of_closingEvent hleft.symm
    exact .token .closing hrest.symm hposition rfl fun hstop ↦ ih hstop hright.symm
  | case5 depth here c rest hrest events stop hread ih =>
    obtain ⟨left, right, rfl, rfl, hright⟩ := List.map_eq_append_iff.mp h.symm
    obtain ⟨slice, lexeme, hwhole, hstop, hspells, rfl⟩ := Stretch.spells_of_read hread
    exact .token hspells (hwhole.trans hrest.symm) hposition hstop
      fun hstop ↦ ih hstop hright.symm

end Source

/-! ### The end of the input -/

/-- From one place of a source reading gets to another one, past the characters between them. -/
def Place.Leads (here there : Place) : Prop :=
  ∃ taken, taken ++ there.rest = here.rest ∧ there.position = here.position.afterAll taken

namespace Place

theorem Leads.refl (here : Place) : here.Leads here := ⟨[], rfl, rfl⟩

theorem Leads.trans {here middle there : Place} (hfirst : here.Leads middle)
    (hsecond : middle.Leads there) : here.Leads there := by
  obtain ⟨first, hmiddle, hposition⟩ := hfirst
  obtain ⟨second, hthere, hbehind⟩ := hsecond
  refine ⟨first ++ second, ?_, ?_⟩
  · rw [List.append_assoc, hthere, hmiddle]
  · rw [hbehind, hposition, Position.afterAll_append]

/-- Characters from the front are passed. -/
theorem leads_past {here : Place} {taken rest : List Char} (h : taken ++ rest = here.rest) :
    here.Leads (here.past taken rest) := ⟨taken, h, rfl⟩

/-- The position of the end of the source that a place is in. -/
def sourceEnd (here : Place) : Position := here.position.afterAll here.rest

/-- Getting on in a source does not move its end. -/
theorem Leads.sourceEnd_eq {here there : Place} (h : here.Leads there) :
    there.sourceEnd = here.sourceEnd := by
  obtain ⟨taken, hrest, hposition⟩ := h
  rw [sourceEnd, sourceEnd, ← hrest, hposition, Position.afterAll_append]

end Place

/-- Reading a string leads to the place behind it. -/
theorem Lexeme.leads_readString (here : Place) : here.Leads (readString here).stop := by
  fun_induction readString here with
  | case1 here | case3 here => exact .refl here
  | case2 here rest hrest => exact Place.leads_past hrest.symm
  | case4 here rest hrest escape ih =>
    rw [StringBody.stop_cons]
    refine .trans (Place.leads_past ?_) ih
    rw [hrest, List.cons_append, taken_append_rest_readEscape]
  | case5 here c rest _ _ _ hrest ih =>
    rw [StringBody.stop_cons]
    exact .trans (Place.leads_past hrest.symm) ih

/-- Reading a stretch leads to the place behind it. -/
theorem Stretch.IsRead.leads {file : String} {here : Place} {c : Char} {rest : List Char}
    {outcome : Stretch × Place} (h : IsRead file here c rest outcome)
    (hhere : here.rest = c :: rest) : here.Leads outcome.2 := by
  cases h with
  | blank _ | opening | closing | unexpected => exact Place.leads_past hhere.symm
  | @lineComment behind =>
    apply Place.leads_past
    rw [hhere]
    exact congrArg (';' :: ';' :: ·) List.takeWhile_append_dropWhile
  | blockComment hinside =>
    apply Place.leads_past
    rw [hhere]
    exact congrArg ('(' :: ';' :: ·) (append_of_blockComment? hinside)
  | openComment =>
    apply Place.leads_past
    rw [hhere, List.append_nil]
  | string => exact .trans (Place.leads_past hhere.symm) (leads_readString _)
  | word _ =>
    apply Place.leads_past
    rw [hhere]
    exact congrArg (c :: ·) List.takeWhile_append_dropWhile

/-- What stands at a place leads to the place behind it. -/
theorem Stretch.leads_of_read {file : String} {here stop : Place} {c : Char} {rest : List Char}
    {stretch : Stretch} (hhere : here.rest = c :: rest)
    (hread : Stretch.read file here c rest = (stretch, stop)) : here.Leads stop := by
  have hleads := (isRead_read file here c rest).leads hhere
  rwa [hread] at hleads

/-- The end of the input is the end of the source. -/
theorem Scan.stop_readFrom (file : String) (limit : Option NestingLimit) (depth : Nat)
    (here : Place) : (readFrom file limit depth here).stop = here.sourceEnd := by
  fun_induction readFrom file limit depth here with
  | case1 depth here hrest => rw [Place.sourceEnd, hrest, Position.afterAll_nil]
  | case2 depth here c rest hrest stop hread ih =>
    exact ih.trans (Stretch.leads_of_read hrest hread).sourceEnd_eq
  | case3 depth here c rest hrest stop hread ih =>
    exact ih.trans (Stretch.leads_of_read hrest hread).sourceEnd_eq
  | case4 depth here c rest hrest stop hread ih =>
    exact ih.trans (Stretch.leads_of_read hrest hread).sourceEnd_eq
  | case5 depth here c rest hrest events stop hread ih =>
    exact ih.trans (Stretch.leads_of_read hrest hread).sourceEnd_eq

/-! ### Whole sources -/

/-- Assumes: a source is read. Its tokens tile it, each slice being the parenthesis or read as the
lexeme alone; the input ends behind the last character; and the parentheses are balanced: no prefix
closes more of them than it opens, and all are closed. -/
theorem tiles_of_read (file source : String) (limit : Option NestingLimit) (tokens : TokenList)
    (h : TokenList.read file limit source = .ok tokens) :
    Tiles ReadsAs file source.toList 0 tokens.body ∧
      tokens.stop.first = .ofOffset source.toList source.toList.length ∧
      (∀ front, front <+: lexemesOf tokens.body →
        front.count .closing ≤ front.count .opening) ∧
      (lexemesOf tokens.body).count .closing = (lexemesOf tokens.body).count .opening := by
  obtain ⟨-, hdepth⟩ := scanned_of_read h
  have hcount := count_of_depthBehind? hdepth
  obtain ⟨hclean, rfl⟩ := read_eq_ok_iff.mp h
  have htiles : Tiles Spells file ([] ++ source.toList) 0
      ((ofSource file limit source).tokens file).body :=
    tiles_of_readFrom rfl (map_token_of_diagnostic? hclean)
  refine ⟨htiles.mono fun _ _ ↦ readsAs_of_spells, ?_,
    fun front hfront ↦ count_le_of_isPrefix hdepth hfront, by omega⟩
  rw [Position.ofOffset_eq_afterAll, List.take_length]
  exact stop_readFrom file limit 0 (.start source)

/-- A string in parentheses that goes on over a line feed in the braces of an escape. -/
def brokenString : String := "(\"\\u\x7b\n41\x7d\" )"

theorem tiles_of_read_brokenString :
    ∃ tokens, TokenList.read "" none brokenString = .ok tokens ∧
      Tiles ReadsAs "" brokenString.toList 0 tokens.body ∧
      tokens.stop.first = .ofOffset brokenString.toList brokenString.toList.length ∧
      (∀ front, front <+: lexemesOf tokens.body →
        front.count .closing ≤ front.count .opening) ∧
      (lexemesOf tokens.body).count .closing = (lexemesOf tokens.body).count .opening := by
  let escape : List Char := ['u', '\x7b', '\n', '4', '1', '\x7d']
  have hbody : IsLiteralBody ('\\' :: escape) "A" := by
    intro here rest hhere
    obtain ⟨middle, hmiddle, hescape⟩ := readString_of_escape escape hhere rfl
    refine ⟨middle.past ['"'] rest, rfl, ?_⟩
    rw [hescape, readString_of_quote hmiddle]
    rfl
  have hclosing : Layout [.closing] (' ' :: ([')'] ++ [])) :=
    .gap (by decide) (.lexeme .closing trivial .nil)
  have hstring : Layout [.string "A", .closing]
      (('"' :: ('\\' :: escape) ++ ['"']) ++ (' ' :: ([')'] ++ []))) :=
    .lexeme (.string hbody) trivial hclosing
  have hopening : MayPrecede .opening
      (('"' :: ('\\' :: escape) ++ ['"']) ++ (' ' :: ([')'] ++ []))) := by
    simp [MayPrecede]
  have hlayout : Layout (parenthesised [.string "A"]) brokenString.toList :=
    .lexeme .opening hopening hstring
  obtain ⟨tokens, htokens, -⟩ := read_of_layout "" hlayout
    (Balanced.nests_none (.parenthesised (.plain (by simp [IsPlain]))) 0)
  exact ⟨tokens, htokens, tiles_of_read "" brokenString none tokens htokens⟩

end WatTypes
