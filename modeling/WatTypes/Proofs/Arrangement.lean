import WatTypes.Proofs.Lexical.Gap
import WatTypes.Proofs.Lexical.Literal
import WatTypes.Proofs.Scanning
import WatTypes.Proofs.SpanIndependence

/-!
# Sources that differ in their gaps

However lexemes with balanced parentheses are arranged in a source, with whatever blanks and
comments around them, the source is read into these lexemes, and what it means is up to them alone
(`read_arrangement`). In an arrangement each lexeme can stand before what follows it
(`Arranged.mayPrecede`), so that reading alternates between passing over a gap and reading a lexeme
(`readFrom_of_arranged`).
-/

set_option autoImplicit false
set_option relaxedAutoImplicit false

namespace WatTypes

open Grammar Lexeme Lexeme.Syntax Scan

/-! ### What may follow a lexeme -/

namespace Lexeme.Syntax

/-- A gap does not continue a word, and starts with a semicolon only as a line comment. -/
theorem Gap.of_head? {isLast : Bool} {gap : List Char} (h : Gap isLast gap) :
    ∀ c ∈ gap.head?, isIdChar c = false ∧ (c = ';' → [';', ';'] <+: gap) := by
  cases h with
  | nil => exact fun c hc ↦ (nomatch hc)
  | @blank d rest hd _ =>
    intro c hc
    cases hc
    constructor
    · cases hword : isIdChar d with
      | false => rfl
      | true =>
        rw [(ne_of_isIdChar hword).1] at hd
        cases hd
    · rintro rfl
      cases hd
  | lineComment _ _ | lastComment _ _ =>
    intro c hc
    cases hc
    exact ⟨by decide, fun _ ↦ List.prefix_append [';', ';'] _⟩
  | blockComment _ _ =>
    intro c hc
    cases hc
    exact ⟨by decide, fun h ↦ by cases h⟩

/-- A lexeme that is no word does not continue one. -/
theorem Written.not_isIdChar {written : List Char} {lexeme : Lexeme} (h : Written written lexeme)
    (hword : isWord lexeme = false) : ∀ c ∈ written.head?, isIdChar c = false := by
  cases h with
  | opening | closing | string _ _ =>
    intro c hc
    cases hc
    decide
  | _ => cases hword

/-- Arranged lexemes start with the first one, and not with a semicolon. -/
theorem Arranged.of_head? {lexemes : List Lexeme} {source : List Char}
    (h : Arranged lexemes source) : ∀ c ∈ source.head?, c ≠ ';' ∧
      ((∃ first ∈ lexemes.head?, isWord first = true) ∨ isIdChar c = false) := by
  cases h with
  | nil => exact fun c hc ↦ (nomatch hc)
  | @cons lexeme others written gap rest hwritten _ _ _ _ =>
    obtain ⟨first, cs, rfl, hsemicolon⟩ := (spells_of_written hwritten).exists_cons
    intro c hc
    cases hc
    refine ⟨hsemicolon, ?_⟩
    cases hword : isWord lexeme with
    | true => exact .inl ⟨lexeme, rfl, hword⟩
    | false => exact .inr (hwritten.not_isIdChar hword first rfl)

/-- No lexemes are arranged in nothing. -/
theorem Arranged.eq_nil_of_isEmpty {lexemes : List Lexeme} {source : List Char}
    (h : Arranged lexemes source) (hempty : lexemes.isEmpty = true) : source = [] := by
  rw [List.isEmpty_iff.mp hempty] at h
  cases h
  rfl

/-- In an arrangement a lexeme can stand before what follows it. -/
theorem Arranged.mayPrecede {lexeme : Lexeme} {others : List Lexeme} {written gap rest : List Char}
    (hwritten : Written written lexeme) (hgap : Gap others.isEmpty gap)
    (hopening : lexeme = .opening → ¬ [';', ';'] <+: gap)
    (hwords : isWord lexeme = true → (∃ second ∈ others.head?, isWord second = true) → gap ≠ [])
    (hrest : Arranged others rest) : MayPrecede lexeme (gap ++ rest) := by
  have hsemicolon : ∀ c ∈ (gap ++ rest).head?, c = ';' → [';', ';'] <+: gap := by
    cases gap with
    | nil => exact fun c hc hc' ↦ absurd hc' (hrest.of_head? c hc).1
    | cons d cs => exact fun c hc ↦ (hgap.of_head? c hc).2
  have hboundary (hword : isWord lexeme = true) :
      ∀ c ∈ (gap ++ rest).head?, isIdChar c = false := by
    cases gap with
    | nil => exact fun c hc ↦ (hrest.of_head? c hc).2.resolve_left fun h ↦ hwords hword h rfl
    | cons d cs => exact fun c hc ↦ (hgap.of_head? c hc).1
  cases hwritten with
  | opening => exact fun h ↦ hopening rfl (hsemicolon ';' h rfl)
  | closing | string _ _ => trivial
  | _ => exact hboundary rfl

end Lexeme.Syntax

/-! ### Reading an arrangement -/

section Reading

variable {file : String} {limit : Option NestingLimit} {lexemes : List Lexeme}

/-- Assumes: balanced parentheses that nest as deep as allowed. Reading arranged lexemes to their
end gives these lexemes. -/
theorem readFrom_of_arranged {source : List Char} (h : Arranged lexemes source) {depth : Nat}
    (hdepth : depthBehind? limit depth lexemes = some 0) {here : Place}
    (hhere : here.rest = source) :
    ∃ tokens : List Token, ∃ stop, lexemesOf tokens = lexemes ∧
      readFrom file limit depth here = ⟨tokens.map .token, stop⟩ := by
  induction h generalizing depth here with
  | nil =>
    cases hdepth
    exact ⟨[], here.position, rfl, by rw [readFrom_of_nil hhere]; rfl⟩
  | @cons lexeme others written gap rest hwritten hgap hopening hwords hrest ih =>
    rw [depthBehind?_cons] at hdepth
    obtain ⟨past, hpast, hbehind⟩ := Option.bind_eq_some_iff.mp hdepth
    have hprecedes := Arranged.mayPrecede hwritten hgap hopening hwords hrest
    obtain ⟨span, middle, hmiddle, hfirst⟩ := readFrom_of_spells
      (spells_of_written hwritten) hprecedes hpast hhere
    obtain ⟨there, hthere, hgapped⟩ := readFrom_of_gap hgap hrest.eq_nil_of_isEmpty hmiddle
    obtain ⟨tokens, stop, htokens, hothers⟩ := ih hbehind hthere
    refine ⟨⟨lexeme, span⟩ :: tokens, stop, by rw [lexemesOf_cons, htokens], ?_⟩
    rw [hfirst, hgapped, hothers]
    rfl

/-- A source in which balanced lexemes are arranged is read into these lexemes. -/
theorem exists_read_of_arrangement (file : String) (hbalanced : Balanced lexemes) {source : String}
    (h : Arrangement lexemes source.toList) :
    ∃ tokens, TokenList.read file none source = .ok tokens ∧ lexemesOf tokens.body = lexemes := by
  obtain ⟨gap, rest, hsource, hgap, hrest⟩ := h
  have hstart : (Place.start source).rest = gap ++ rest := hsource
  obtain ⟨there, hthere, hgapped⟩ := readFrom_of_gap hgap hrest.eq_nil_of_isEmpty hstart
  obtain ⟨tokens, stop, htokens, hread⟩ :=
    readFrom_of_arranged hrest (hbalanced.nests_none 0) hthere
  exact ⟨_, read_of_readFrom (hgapped.trans hread), htokens⟩

end Reading

/-- Assumes: lexemes with balanced parentheses, arranged in a source. The source is read into these
lexemes, and it means the same, up to spans, as any other source in which they are arranged. -/
theorem read_arrangement {lexemes : List Lexeme} (hbalanced : Balanced lexemes) {source : String}
    (h : Arrangement lexemes source.toList) (file : String) :
    (∃ tokens, TokenList.read file none source = .ok tokens ∧
      lexemesOf tokens.body = lexemes) ∧
    ∀ again other : String, Arrangement lexemes other.toList →
      SameUpToSpans (TypeModule.read file none source) (TypeModule.read again none other) := by
  obtain ⟨tokens, htokens, hlexemes⟩ := exists_read_of_arrangement file hbalanced h
  refine ⟨⟨tokens, htokens, hlexemes⟩, fun again other hother ↦ ?_⟩
  obtain ⟨others, hothers, hsame⟩ := exists_read_of_arrangement again hbalanced hother
  have hends (found : TokenList) (hfound : lexemesOf found.body = lexemes) : found.EndsOnce :=
    fun token hmem ↦ hbalanced.ne_endOfInput _ (hfound ▸ List.mem_map_of_mem hmem)
  have houtcome := sameUpToSpans_ofTokens (hends tokens hlexemes) (hends others hsame)
    (hsame.trans hlexemes.symm)
  simp only [TypeModule.read, htokens, hothers]
  revert houtcome
  cases TypeModule.ofTokens tokens <;> cases TypeModule.ofTokens others <;> exact fun h ↦ h

/-- A memory among comments that nest, start like others inside, and end with the input. -/
def commentedMemory : String := "(;;;)((;(;;);)memory;;(;\n0x1e5);;"

theorem read_arrangement_commentedMemory :
    ∃ lexemes, Balanced lexemes ∧ Arrangement lexemes commentedMemory.toList ∧
      (∃ tokens, TokenList.read "" none commentedMemory = .ok tokens ∧
        lexemesOf tokens.body = lexemes) ∧
      Arrangement lexemes "(memory 0x1e5)".toList ∧
      SameUpToSpans (TypeModule.read "" none commentedMemory)
        (TypeModule.read "" none "(memory 0x1e5)") := by
  have hbalanced : Balanced (parenthesised [.keyword "memory", .integer "0x1e5"]) :=
    .parenthesised (balanced_of_forall_isPlain (by simp [IsPlain]))
  have hkeyword : Written "memory".toList (.keyword "memory") :=
    .keyword (by decide) (List.all_eq_true.mp (by decide)) fun h ↦
      absurd (isFloat_iff.mpr h) (by decide)
  have hinteger : Written "0x1e5".toList (.integer "0x1e5") :=
    .integer (isInteger_iff.mp (by decide))
  have harranged {first second last : List Char} (hfirst : Gap false first)
      (hcomment : ¬ [';', ';'] <+: first) (hsecond : Gap false second) (hne : second ≠ [])
      (hlast : Gap true last) : Arranged (parenthesised [.keyword "memory", .integer "0x1e5"])
        (['('] ++ (first ++ ("memory".toList ++ (second ++ ("0x1e5".toList ++ ([] ++
          ([')'] ++ (last ++ []))))))))  :=
    .cons .opening hfirst (fun _ ↦ hcomment) (by simp [isWord])
      (.cons hkeyword hsecond (by simp) (fun _ _ ↦ hne)
        (.cons hinteger .nil (by simp) (by simp [isWord])
          (.cons .closing hlast (by simp) (by simp) .nil)))
  have hline : Gap false ";;(;\n".toList := @Gap.lineComment false ['(', ';'] [] (by decide) .nil
  have hblock : Gap false "(;(;;);)".toList := .blockComment (.nested .close .close) .nil
  have hlast : Gap true ";;".toList := .lastComment rfl (by decide)
  have hcommented : Arrangement (parenthesised [.keyword "memory", .integer "0x1e5"])
      commentedMemory.toList :=
    ⟨"(;;;)".toList, _, rfl, .blockComment (.char (by decide) (by decide) .close) .nil,
      harranged hblock (by decide) hline (by decide) hlast⟩
  have hplain : Arrangement (parenthesised [.keyword "memory", .integer "0x1e5"])
      "(memory 0x1e5)".toList :=
    ⟨[], _, rfl, .nil, harranged .nil (by decide) (.blank (by decide : isGapChar ' ' = true) .nil)
      (by decide) .nil⟩
  obtain ⟨hread, hsame⟩ := read_arrangement hbalanced hcommented ""
  exact ⟨_, hbalanced, hcommented, hread, hplain, hsame "" _ hplain⟩

end WatTypes
