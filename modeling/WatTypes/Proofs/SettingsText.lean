import WatTypes.Proofs.Sources
import WatTypes.Settings

/-!
# A file of settings that is read as a module is blank

Behind its blanks a document of settings starts with a key, with a header or with a hash mark
(`startsBehind_of_statements`), and a source that is read as a module with a comment or with an
opening parenthesis (`startsBehind_of_tokenized`). Hence a file that is both is blank, its settings
are those without a file, and the canonical text of its module is a line feed, which as a file of
settings says the same (`ofBytes_canonicalText`).
-/

set_option autoImplicit false
set_option relaxedAutoImplicit false

namespace WatTypes

open Grammar Lexeme

/-- Behind its blanks a text starts with a character that is allowed there, if with any. -/
def StartsBehind (isBlank allowed : Char → Bool) (text : List Char) : Prop :=
  (text.dropWhile isBlank).head?.all allowed = true

section

variable {isBlank allowed : Char → Bool} {c : Char} {rest : List Char}

theorem startsBehind_cons_of_blank (h : isBlank c = true) :
    StartsBehind isBlank allowed (c :: rest) ↔ StartsBehind isBlank allowed rest := by
  rw [StartsBehind, List.dropWhile_cons_of_pos h, StartsBehind]

theorem startsBehind_cons (h : isBlank c = false) :
    StartsBehind isBlank allowed (c :: rest) ↔ allowed c = true := by
  rw [StartsBehind, List.dropWhile_cons_of_neg (by simp [h])]
  rfl

theorem startsBehind_append {blanks : List Char} (h : ∀ c ∈ blanks, isBlank c = true) :
    StartsBehind isBlank allowed (blanks ++ rest) ↔ StartsBehind isBlank allowed rest := by
  rw [StartsBehind, List.dropWhile_append_of_pos h, StartsBehind]

end

/-- A text behind whose blanks something stands. -/
theorem of_dropWhile_eq_cons {isBlank : Char → Bool} {text rest : List Char} {c : Char}
    (h : text.dropWhile isBlank = c :: rest) : isBlank c = false ∧ rest.length < text.length := by
  have hhead := List.head?_dropWhile_not isBlank text
  have hlength := (List.dropWhile_sublist isBlank (l := text)).length_le
  rw [h] at hhead
  rw [h, List.length_cons] at hlength
  exact ⟨hhead, hlength⟩

/-! ### Documents -/

namespace Toml

open Step

/-- A character that a statement starts with. -/
def startsStatement (c : Char) : Bool := Reader.startsKey c || c == '[' || c == '#'

namespace Reader

/-- A blank within a line is one between lines too. -/
theorem isGap_of_isBlank {c : Char} (h : isBlank c = true) : isGap c = true := by
  rw [isGap, h, Bool.true_or]

theorem blanks_apply (text : List Char) : blanks text = (.ok (), text.dropWhile isBlank) := rfl

theorem accept_apply (characters text : List Char) : accept characters text =
    (.ok (characters.isPrefixOf text),
      if characters.isPrefixOf text then text.drop characters.length else text) := by
  rw [accept, bind_apply, state_apply]
  cases hstarts : characters.isPrefixOf text <;> simp [hstarts]

/-- Where a line does not end in a comment, it ends in a line feed. -/
theorem lineEnd_cons {c : Char} {rest : List Char} (hblank : isBlank c = false)
    (hcomment : c ≠ '#') :
    lineEnd (c :: rest) = if c = '\n' then (.ok (), rest) else (.error .malformed, c :: rest) := by
  have hblanks : blanks (c :: rest) = (.ok (), c :: rest) := by
    rw [blanks_apply, List.dropWhile_cons_of_neg (by simp [hblank])]
  have hnone : comment (c :: rest) = (.ok (), c :: rest) := by
    rw [comment, bind_apply, accept_apply]
    simp [List.isPrefixOf, Ne.symm hcomment]
  rw [lineEnd, bind_apply, hblanks]
  simp only [bind_apply, hnone, state_apply, List.isEmpty_cons, Bool.not_false, if_true, expect]
  by_cases hline : c = '\n'
  · simp [hline]
  · have hstarts : ['\n'].isPrefixOf (c :: rest) = false := by
      simpa [List.isPrefixOf] using fun heq ↦ hline heq.symm
    simp [hstarts, hline, malformed]

/-- The statements of a document, one after the other. -/
def statements (draft : Draft) : Reader Draft :=
  foldWhile List.length (fun text ↦ !text.isEmpty) statement draft

theorem statements_of_statement {draft next : Draft} {text after : List Char} (hne : text ≠ [])
    (h : statement draft text = (.ok next, after)) (hless : after.length < text.length) :
    statements draft text = statements next after := by
  have hmore : (!text.isEmpty) = true := by simpa using hne
  rw [statements, foldWhile, if_pos hmore]
  simp only [h, if_pos hless]
  rfl

variable {draft : Draft} {c : Char} {text rest : List Char}

/-- On blanks alone a document says nothing. -/
theorem statements_of_nil (h : text.dropWhile isBlank = []) :
    statements draft text = (.ok draft, []) := by
  have hnil : statements draft [] = (.ok draft, []) := by
    rw [statements, foldWhile, if_neg (by simp)]
  cases text with
  | nil => exact hnil
  | cons d others =>
    have hstatement : statement draft (d :: others) = (.ok draft, []) := by
      simp [statement, blanks_apply, h]
    rw [statements_of_statement (List.cons_ne_nil d others) hstatement (Nat.zero_lt_succ _), hnil]

/-- Where a statement starts with nothing it can start with, it is an empty line. -/
theorem statements_of_cons (h : text.dropWhile isBlank = c :: rest)
    (hstarts : startsStatement c = false) :
    statements draft text =
      if c = '\n' then statements draft rest else (.error .malformed, c :: rest) := by
  obtain ⟨⟨hkey, hbracket⟩, hhash⟩ : (startsKey c = false ∧ c ≠ '[') ∧ c ≠ '#' := by
    simpa [startsStatement] using hstarts
  obtain ⟨hblank, hless⟩ := of_dropWhile_eq_cons h
  have hne : text ≠ [] := by
    rintro rfl
    cases h
  have hstatement : statement draft text =
      if c = '\n' then (.ok draft, rest) else (.error .malformed, c :: rest) := by
    simp only [statement, bind_apply, blanks_apply, h, state_apply, List.head?_cons, hkey,
      Bool.false_eq_true, if_false, hbracket, lineEnd_cons hblank hhash]
    by_cases hline : c = '\n'
    · simp [hline]
    · simp [hline]
  split
  · rename_i hline
    rw [if_pos hline] at hstatement
    exact statements_of_statement hne hstatement hless
  · rename_i hline
    rw [if_neg hline] at hstatement
    rw [statements, foldWhile, if_pos (by simpa using hne), hstatement]

/-- Behind its blanks a document starts like a statement, if it is read. -/
theorem startsBehind_of_statements {found : Draft} {text : List Char}
    (h : (statements draft text).1 = .ok found) : StartsBehind isGap startsStatement text := by
  have hblanks : ∀ c ∈ text.takeWhile isBlank, isGap c = true := fun c hc ↦
    isGap_of_isBlank (List.all_eq_true.mp List.all_takeWhile c hc)
  have hgap {c : Char} (hstarts : startsStatement c = true) : isGap c = false := by
    cases hblank : isGap c with
    | false => rfl
    | true =>
      have hcases : (c = ' ' ∨ c = '\t') ∨ c = '\n' := by simpa [isGap, isBlank] using hblank
      rcases hcases with (rfl | rfl) | rfl <;> exact absurd hstarts (by decide)
  rw [← List.takeWhile_append_dropWhile (p := isBlank) (l := text), startsBehind_append hblanks]
  cases hrest : text.dropWhile isBlank with
  | nil => rfl
  | cons c rest =>
    cases hstarts : startsStatement c with
    | true => exact (startsBehind_cons (hgap hstarts)).mpr hstarts
    | false =>
      rw [statements_of_cons hrest hstarts] at h
      split at h
      · rename_i hline
        rw [hline, startsBehind_cons_of_blank (by decide)]
        have hless := (of_dropWhile_eq_cons hrest).2
        exact startsBehind_of_statements h
      · cases h
termination_by text.length

/-- A document of blanks and line feeds says nothing. -/
theorem statements_of_forall {text : List Char} (h : ∀ c ∈ text, isGap c = true) :
    statements draft text = (.ok draft, []) := by
  cases hrest : text.dropWhile isBlank with
  | nil => exact statements_of_nil hrest
  | cons c rest =>
    have hmem {d : Char} (hd : d ∈ c :: rest) : isGap d = true :=
      h d ((List.dropWhile_sublist isBlank).subset (hrest ▸ hd))
    obtain ⟨hhead, hless⟩ := of_dropWhile_eq_cons hrest
    have hline : c = '\n' := by
      simpa [isGap, hhead] using hmem List.mem_cons_self
    rw [statements_of_cons hrest (by rw [hline]; decide), if_pos hline]
    exact statements_of_forall fun d hd ↦ hmem (List.mem_cons_of_mem c hd)
termination_by text.length

end Reader

end Toml

/-! ### Sources -/

/-- A character that a comment or a parenthesis starts with. -/
def startsSource (c : Char) : Bool := c == ';' || c == '('

theorem eq_of_spells_opening {slice : List Char} (h : Spells slice .opening) : slice = ['('] := by
  cases h with
  | opening => rfl
  | word _ hword => rcases ofWord_cases hword with ⟨_, -, -, h⟩ | ⟨_, -, -, h⟩ | ⟨-, h⟩ | ⟨-, h⟩ |
      ⟨_, _, -, -, h⟩ <;> cases h

/-- The tokens of a module start with an opening parenthesis. -/
theorem Grammar.Derivation.opening_of_module {tokens : List Token} {value : Option Id × List Field}
    (h : module tokens value) : ∀ token ∈ tokens.head?, token.lexeme = .opening := by
  have hparens {α : Type} {phrase : Phrase α} {tokens : List Token} {value : α}
      (h : Phrase.parens phrase tokens value) (rest : List Token) :
      ∀ token ∈ (tokens ++ rest).head?, token.lexeme = .opening := by
    obtain ⟨opening, closing, inner, rfl, hopening, -, -⟩ := h
    intro token htoken
    cases htoken
    exact hopening
  rcases h with h | ⟨fields, h, -⟩
  · simpa using hparens h []
  · cases h with
    | nil => exact fun _ htoken ↦ nomatch htoken
    | cons hfirst _ => exact hparens hfirst _

/-- The module without tokens has no identifier and no fields. -/
theorem Grammar.Derivation.eq_of_module_nil {value : Option Id × List Field} (h : module [] value) :
    value = (none, []) := by
  rcases h with ⟨opening, closing, inner, h, -⟩ | ⟨fields, h, rfl⟩
  · cases h
  · generalize htokens : ([] : List Token) = tokens at h
    cases h with
    | nil => rfl
    | cons hfirst _ =>
      obtain ⟨opening, closing, inner, rfl, -⟩ := hfirst
      cases htokens

section

variable {file : String} {here : Position} {source : List Char} {tokens : List Token}

/-- Assumes: tokens that start with an opening parenthesis. Behind its blanks their text starts with
one too, or with a comment. -/
theorem startsBehind_of_tokenized (h : Tokenized file here source tokens)
    (hfirst : ∀ token ∈ tokens.head?, token.lexeme = .opening) :
    StartsBehind isGapChar startsSource source := by
  induction h with
  | nil => rfl
  | gapPart hpart _ ih =>
    cases hpart with
    | blank hblank => exact (startsBehind_cons_of_blank hblank).mpr (ih hfirst)
    | lineComment _ _ | blockComment _ => exact (startsBehind_cons (by decide)).mpr (by decide)
  | @token _ slice _ lexeme _ hspells _ _ _ =>
    have hopening : lexeme = .opening := hfirst _ rfl
    rw [hopening] at hspells
    rw [eq_of_spells_opening hspells]
    exact (startsBehind_cons (by decide)).mpr (by decide)

/-- Blanks hold no tokens. -/
theorem eq_nil_of_tokenized (h : Tokenized file here source tokens)
    (hfirst : ∀ token ∈ tokens.head?, token.lexeme = .opening)
    (hblank : ∀ c ∈ source, isGapChar c = true) : tokens = [] := by
  induction h with
  | nil => rfl
  | gapPart _ _ ih => exact ih hfirst fun c hc ↦ hblank c (List.mem_append_right _ hc)
  | @token _ slice _ lexeme _ hspells _ _ _ =>
    have hopening : lexeme = .opening := hfirst _ rfl
    rw [hopening] at hspells
    rw [eq_of_spells_opening hspells] at hblank
    exact absurd (hblank '(' List.mem_cons_self) (by decide)

end

/-! ### Both -/

/-- A text that starts like a document and like a source is blank. -/
theorem forall_blank_of_startsBehind {text : List Char}
    (hdocument : StartsBehind Toml.Reader.isGap Toml.startsStatement (Toml.withoutReturns text))
    (hsource : StartsBehind isGapChar startsSource (Text.withLineFeeds text)) :
    (∀ c ∈ Toml.withoutReturns text, Toml.Reader.isGap c = true) ∧
      ∀ c ∈ Text.withLineFeeds text, isGapChar c = true := by
  fun_induction Toml.withoutReturns text with
  | case1 => simp [Text.withLineFeeds]
  | case2 rest ih =>
    rw [Text.withLineFeeds] at hsource ⊢
    rw [startsBehind_cons_of_blank (by decide)] at hdocument hsource
    obtain ⟨hdocument, hsource⟩ := ih hdocument hsource
    exact ⟨List.forall_mem_cons.mpr ⟨by decide, hdocument⟩,
      List.forall_mem_cons.mpr ⟨by decide, hsource⟩⟩
  | case3 c rest hreturn ih =>
    have hlines : Text.withLineFeeds (c :: rest) =
        (if c = '\r' then '\n' else c) :: Text.withLineFeeds rest := by
      rw [Text.withLineFeeds]
      exact hreturn
    rw [hlines] at hsource ⊢
    cases hblank : Toml.Reader.isGap c with
    | true =>
      have hcases : (c = ' ' ∨ c = '\t') ∨ c = '\n' := by
        simpa [Toml.Reader.isGap, Toml.Reader.isBlank] using hblank
      have hgap : isGapChar (if c = '\r' then '\n' else c) = true := by
        rcases hcases with (rfl | rfl) | rfl <;> decide
      rw [startsBehind_cons_of_blank hblank] at hdocument
      rw [startsBehind_cons_of_blank hgap] at hsource
      obtain ⟨hdocument, hsource⟩ := ih hdocument hsource
      exact ⟨List.forall_mem_cons.mpr ⟨hblank, hdocument⟩,
        List.forall_mem_cons.mpr ⟨hgap, hsource⟩⟩
    | false =>
      rw [startsBehind_cons hblank] at hdocument
      have hreturns : c ≠ '\r' := by
        rintro rfl
        exact absurd hdocument (by decide)
      have hgap : isGapChar c = false := by
        simpa [Toml.Reader.isGap, Toml.Reader.isBlank, isGapChar, hreturns, and_assoc] using hblank
      rw [if_neg hreturns, startsBehind_cons hgap] at hsource
      have hcases : c = ';' ∨ c = '(' := by simpa [startsSource] using hsource
      rcases hcases with rfl | rfl <;> exact absurd hdocument (by decide)

/-- What is read from bytes is the text that they encode, but for its line breaks. -/
theorem FileTree.exists_text_of_decoded {bytes : ByteArray} {source : String}
    (h : decoded bytes = .ok source) : ∃ text, String.fromUTF8? bytes = some text ∧
      source.toList = Text.withLineFeeds text.toList := by
  unfold decoded at h
  split at h
  · rename_i text htext
    cases h
    exact ⟨text, htext, String.toList_ofList⟩
  · cases h

namespace Settings

/-- A file that is read as settings is a document. -/
theorem exists_statements_of_ofBytes {bytes : ByteArray} {text : String} {settings : Settings}
    (htext : String.fromUTF8? bytes = some text) (h : ofBytes bytes = .ok settings) :
    ∃ draft, (Toml.Reader.statements .start (Toml.withoutReturns text.toList)).1 = .ok draft := by
  rw [ofBytes, htext] at h
  cases hdocument : (Toml.Reader.statements .start (Toml.withoutReturns text.toList)).1 with
  | ok draft => exact ⟨draft, rfl⟩
  | error fault =>
    have hread : Toml.read text = .error fault := by
      rw [Toml.read, ← Toml.Reader.statements, hdocument]
      rfl
    simp only [hread] at h
    cases h

/-- The settings in a blank file are those without a file. -/
theorem ofBytes_of_forall {bytes : ByteArray} {text : String}
    (htext : String.fromUTF8? bytes = some text)
    (h : ∀ c ∈ Toml.withoutReturns text.toList, Toml.Reader.isGap c = true) :
    ofBytes bytes = .ok standard := by
  have hread : Toml.read text = .ok [] := by
    have hstatements : Toml.Reader.statements .start (Toml.withoutReturns text.toList) =
        (.ok .start, []) := Toml.Reader.statements_of_forall h
    rw [Toml.read, ← Toml.Reader.statements, hstatements]
    rfl
  rw [ofBytes, htext]
  simp only [hread]
  rfl

/-- Assumes: a file that is read as settings and as a module. The canonical text of the module is
read as the same settings. -/
theorem ofBytes_canonicalText {bytes : ByteArray} {settings : Settings} {name source : String}
    {limit : Option NestingLimit} {m : TypeModule} (hsettings : ofBytes bytes = .ok settings)
    (hsource : FileTree.decoded bytes = .ok source)
    (hread : TypeModule.read name limit source = .ok m) :
    ofBytes (m.canonicalText TypeModule.standardIndent).toUTF8 = .ok settings := by
  obtain ⟨text, htext, hlines⟩ := FileTree.exists_text_of_decoded hsource
  obtain ⟨draft, hdraft⟩ := exists_statements_of_ofBytes htext hsettings
  obtain ⟨tokens, htokens, hmodule, -⟩ := TypeModule.read_eq_ok_iff.mp hread
  have htokenized := (read_eq_ok_iff_tokenized.mp htokens).1
  have hfirst := Derivation.opening_of_module hmodule
  rw [hlines] at htokenized
  obtain ⟨hdocument, hblank⟩ := forall_blank_of_startsBehind
    (Toml.Reader.startsBehind_of_statements hdraft) (startsBehind_of_tokenized htokenized hfirst)
  rw [eq_nil_of_tokenized htokenized hfirst hblank] at hmodule
  obtain ⟨hid, hfields⟩ := Prod.mk.inj (Derivation.eq_of_module_nil hmodule)
  have hcanonical : m.canonicalText TypeModule.standardIndent = "\n" := by
    simp only [TypeModule.canonicalText, hid, hfields]
    rfl
  have hsame : settings = standard :=
    Except.ok.inj (hsettings.symm.trans (ofBytes_of_forall htext hdocument))
  have hbytes : String.fromUTF8? "\n".toUTF8 = some "\n" := dif_pos (String.isValidUTF8 _)
  rw [hcanonical, hsame]
  exact ofBytes_of_forall hbytes (List.all_eq_true.mp (by decide))

end Settings

end WatTypes
