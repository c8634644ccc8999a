import WatTypes.Proofs.Arrangement
import WatTypes.Proofs.Denotation
import WatTypes.Proofs.Lexical.Tokenized
import WatTypes.Proofs.Wording

/-!
# Sources that hold modules

A source is read as a module exactly if its tokens are one in the sense of the grammar as a relation
(`TypeModule.read_eq_ok_iff`). Whether it is, does not depend on its name
(`TypeModule.exists_read_inFile`). However the lexemes of a module are arranged in it, it is read as
the module (`TypeModule.exists_read_of_arrangement`).
-/

set_option autoImplicit false
set_option relaxedAutoImplicit false

namespace WatTypes

open Grammar Lexeme Lexeme.Syntax

/-! ### Reading -/

section

variable {file : String} {limit : Option NestingLimit} {source : String}

/-- The end of the input is not among the tokens before it. -/
theorem endsOnce_of_read {tokens : TokenList} (h : TokenList.read file limit source = .ok tokens) :
    tokens.EndsOnce := by
  intro token hmem hend
  have hlexeme := (scanned_of_read h).scannable token.lexeme (List.mem_map_of_mem hmem)
  rw [hend] at hlexeme
  exact hlexeme

/-- A source is read as a module exactly if its tokens are one that denotes the identifier and the
fields, and the module spans them. -/
theorem TypeModule.read_eq_ok_iff {m : TypeModule} :
    TypeModule.read file limit source = .ok m ↔
      ∃ tokens, TokenList.read file limit source = .ok tokens ∧
        Derivation.module tokens.body (m.id, m.fields) ∧ m.span = tokens.span := by
  cases htokens : TokenList.read file limit source with
  | error refusal => simp [TypeModule.read, htokens]
  | ok tokens =>
    have hgrammar := ofTokens_eq_ok_iff_module tokens (endsOnce_of_read htokens) m
    simp only [TypeModule.read, htokens, Except.ok.injEq, exists_eq_left']
    rw [← hgrammar]
    cases ofTokens tokens <;> simp

/-- A source of another name is read into tokens of the same lexemes. -/
theorem TokenList.exists_read_inFile (again : String) {tokens : TokenList}
    (h : TokenList.read file limit source = .ok tokens) :
    ∃ others, TokenList.read again limit source = .ok others ∧
      lexemesOf others.body = lexemesOf tokens.body := by
  obtain ⟨htokenized, hnests, -⟩ := read_eq_ok_iff_tokenized.mp h
  have hrenamed : Tokenized again .first source.toList
      (tokens.body.map (Token.relocated (Span.inFile again))) :=
    @Tokenized.relocated _ _ _ _ htokenized again id _ (fun _ _ ↦ rfl) fun _ _ ↦ rfl
  have hlexemes : lexemesOf (tokens.body.map (Token.relocated (Span.inFile again))) =
      lexemesOf tokens.body := by
    simp [lexemesOf, Function.comp_def]
  exact ⟨⟨_, _⟩, read_eq_ok_iff_tokenized.mpr ⟨hrenamed, hlexemes ▸ hnests, rfl⟩, hlexemes⟩

/-- A source of another name is read as a module that is the same up to spans. -/
theorem TypeModule.exists_read_inFile (again : String) {m : TypeModule}
    (h : TypeModule.read file limit source = .ok m) :
    ∃ found, TypeModule.read again limit source = .ok found ∧
      found.withoutSpans = m.withoutSpans := by
  obtain ⟨tokens, htokens, hmodule, hspan⟩ := TypeModule.read_eq_ok_iff.mp h
  obtain ⟨others, hothers, hsame⟩ := TokenList.exists_read_inFile again htokens
  have hm := (ofTokens_eq_ok_iff_module tokens (endsOnce_of_read htokens) m).mpr ⟨hmodule, hspan⟩
  obtain ⟨found, hfound, hspans⟩ :=
    ofTokens_eq_ok_of_lexemesOf_eq (endsOnce_of_read htokens) hsame hm
  refine ⟨found, ?_, hspans⟩
  simp only [TypeModule.read, hothers, hfound]

end

/-! ### Arrangements -/

namespace Lexeme.Syntax

/-- A reserved word may be written as it is. -/
theorem written_of_mem_reservedWords {word : String} (h : word ∈ reservedWords) :
    Written word.toList (.keyword word) := by
  have hall : ∀ word ∈ reservedWords, word.toList.head?.any (fun c ↦ 'a' ≤ c ∧ c ≤ 'z') = true ∧
      word.toList.all isIdChar = true ∧ Number.isFloat word.toList = false := by decide
  obtain ⟨hletter, hchars, hfloat⟩ := hall word h
  rw [← String.ofList_toList (s := word)]
  generalize word.toList = text at *
  cases text with
  | nil => cases hletter
  | cons c rest =>
    rw [String.toList_ofList]
    refine .keyword (by simpa using hletter) (List.all_eq_true.mp hchars) fun hmem ↦ ?_
    rw [isFloat_iff.mpr hmem] at hfloat
    cases hfloat

/-- Lexemes may stand with no gap behind the first one, unless it and the next one are words. -/
theorem Arranged.closely {lexeme : Lexeme} {others : List Lexeme} {written rest : List Char}
    (hwritten : Written written lexeme)
    (hwords : (isWord lexeme && others.head?.any isWord) = false) (hrest : Arranged others rest) :
    Arranged (lexeme :: others) (written ++ ([] ++ rest)) := by
  refine .cons hwritten .nil (by simp) ?_ hrest
  rintro hword ⟨second, hsecond, hboth⟩
  rw [hword, Option.mem_def.mp hsecond, Option.any_some, hboth] at hwords
  cases hwords

end Lexeme.Syntax

/-- Assumes: a module that can be written. A source in which its lexemes are arranged is read into
them, and as the module up to spans. -/
theorem TypeModule.exists_read_of_arrangement (file : String) {m : TypeModule} (hm : m.WellFormed)
    {source : String} (h : Arrangement m.lexemes source.toList) :
    ∃ tokens found, TokenList.read file none source = .ok tokens ∧
      lexemesOf tokens.body = m.lexemes ∧ TypeModule.read file none source = .ok found ∧
        found.withoutSpans = m.withoutSpans := by
  have hwrites := writes_module hm
  obtain ⟨tokens, htokens, hlexemes⟩ :=
    WatTypes.exists_read_of_arrangement file (hwrites.balanced isBalanced_module) h
  obtain ⟨⟨id, fields⟩, hparts, hid, hfields⟩ := hwrites tokens.body hlexemes
  refine ⟨tokens, ⟨id, fields, tokens.span⟩, htokens, hlexemes,
    TypeModule.read_eq_ok_iff.mpr ⟨tokens, htokens, hparts, rfl⟩, ?_⟩
  simp only at hid hfields
  simp only [TypeModule.withoutSpans, hid, hfields]

end WatTypes
