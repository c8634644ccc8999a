import WatTypes.Grammar.Derivation
import WatTypes.Lexeme.Spelling

/-!
# Balanced phrases

The parentheses of a phrase are balanced, and the end of the input is no part of it
(`Lexeme.Balanced`). Every way to put phrases together keeps this, and so it holds of all the
phrases of the grammar, up to modules (`isBalanced_module`).
-/

set_option autoImplicit false
set_option relaxedAutoImplicit false

namespace WatTypes

/-- A lexeme that is neither a parenthesis nor the end of the input. -/
def Lexeme.IsPlain (lexeme : Lexeme) : Prop :=
  lexeme ≠ .opening ∧ lexeme ≠ .closing ∧ lexeme ≠ .endOfInput

/-- Lexemes whose parentheses are balanced, without the end of the input. -/
inductive Lexeme.Balanced : List Lexeme → Prop
  /-- No lexeme. -/
  | nil : Balanced []
  /-- A single lexeme that is no parenthesis. -/
  | plain {lexeme : Lexeme} : lexeme.IsPlain → Balanced [lexeme]
  /-- Balanced lexemes behind others. -/
  | append {first second : List Lexeme} :
    Balanced first → Balanced second → Balanced (first ++ second)
  /-- Balanced lexemes in parentheses. -/
  | parenthesised {inner : List Lexeme} : Balanced inner → Balanced (Lexeme.parenthesised inner)

/-- Without parentheses everything is balanced. -/
theorem Lexeme.balanced_of_forall_isPlain {lexemes : List Lexeme}
    (h : ∀ lexeme ∈ lexemes, lexeme.IsPlain) : Balanced lexemes := by
  induction lexemes with
  | nil => exact .nil
  | cons first others ih =>
    obtain ⟨hfirst, hothers⟩ := List.forall_mem_cons.mp h
    exact .append (.plain hfirst) (ih hothers)

/-- Balanced lexemes do not hold the end of the input. -/
theorem Lexeme.Balanced.ne_endOfInput {lexemes : List Lexeme} (h : Balanced lexemes) :
    ∀ lexeme ∈ lexemes, lexeme ≠ .endOfInput := by
  induction h with
  | nil => exact fun lexeme hlexeme ↦ (List.not_mem_nil hlexeme).elim
  | plain hplain =>
    intro lexeme hlexeme
    rw [List.mem_singleton.mp hlexeme]
    exact hplain.2.2
  | append _ _ ihfirst ihsecond =>
    intro lexeme hlexeme
    rcases List.mem_append.mp hlexeme with hfirst | hsecond
    · exact ihfirst lexeme hfirst
    · exact ihsecond lexeme hsecond
  | parenthesised _ ih =>
    intro lexeme hlexeme
    simp only [Lexeme.parenthesised, List.cons_append, List.mem_cons, List.mem_append,
      List.not_mem_nil, or_false] at hlexeme
    rcases hlexeme with rfl | hinner | rfl
    · decide
    · exact ih lexeme hinner
    · decide

namespace Grammar

open Phrase

/-- The lexemes of tokens. -/
def lexemesOf (tokens : List Token) : List Lexeme := tokens.map Token.lexeme

@[simp] theorem lexemesOf_nil : lexemesOf [] = [] := rfl

@[simp] theorem lexemesOf_cons (token : Token) (tokens : List Token) :
    lexemesOf (token :: tokens) = token.lexeme :: lexemesOf tokens := rfl

@[simp] theorem lexemesOf_append (first second : List Token) :
    lexemesOf (first ++ second) = lexemesOf first ++ lexemesOf second := List.map_append

namespace Phrase

variable {α β : Type}

/-- All phrases of a kind are balanced. -/
def IsBalanced (phrase : Phrase α) : Prop :=
  ∀ ⦃tokens value⦄, phrase tokens value → Lexeme.Balanced (lexemesOf tokens)

/-- Assumes: only plain lexemes have a meaning. A single token with a meaning is balanced. -/
theorem IsBalanced.single {meaning : Token → Option α}
    (h : ∀ token value, meaning token = some value → token.lexeme.IsPlain) :
    IsBalanced (single meaning) := by
  rintro _ value ⟨token, rfl, hmeaning⟩
  exact .plain (h token value hmeaning)

/-- Balanced phrases one after the other. -/
theorem IsBalanced.both {first : Phrase α} {second : Phrase β} (hfirst : IsBalanced first)
    (hsecond : IsBalanced second) : IsBalanced (both first second) := by
  rintro _ value ⟨left, right, rfl, hleft, hright⟩
  rw [lexemesOf_append]
  exact .append (hfirst hleft) (hsecond hright)

/-- A balanced phrase that may be missing. -/
theorem IsBalanced.optional {phrase : Phrase α} (h : IsBalanced phrase) :
    IsBalanced (optional phrase) := by
  rintro tokens (_ | present) hphrase
  · cases hphrase
    exact .nil
  · exact h hphrase

/-- Any number of balanced phrases. -/
theorem IsBalanced.many {phrase : Phrase α} (h : IsBalanced phrase) : IsBalanced (Many phrase) := by
  intro tokens values hmany
  induction hmany with
  | nil => exact .nil
  | cons hfirst _ ih =>
    rw [lexemesOf_append]
    exact .append (h hfirst) ih

/-- A balanced phrase with another meaning. -/
theorem IsBalanced.map {phrase : Phrase α} (meaning : α → β) (h : IsBalanced phrase) :
    IsBalanced (Phrase.map meaning phrase) := by
  rintro tokens _ ⟨inner, hinner, rfl⟩
  exact h hinner

/-- One balanced phrase or another one. -/
theorem IsBalanced.either {first second : Phrase α} (hfirst : IsBalanced first)
    (hsecond : IsBalanced second) : IsBalanced (either first second) := by
  rintro tokens value (h | h)
  · exact hfirst h
  · exact hsecond h

/-- Some balanced phrases of a kind. -/
theorem IsBalanced.only {phrase : Phrase α} (allowed : α → Prop) (h : IsBalanced phrase) :
    IsBalanced (only allowed phrase) :=
  fun _ _ hphrase ↦ h hphrase.1

/-- The lexemes of a phrase in parentheses. -/
theorem lexemesOf_parens {opening closing : Token} (inner : List Token)
    (hopening : opening.lexeme = .opening) (hclosing : closing.lexeme = .closing) :
    lexemesOf (opening :: inner ++ [closing]) = Lexeme.parenthesised (lexemesOf inner) := by
  simp [Lexeme.parenthesised, hopening, hclosing]

/-- A balanced phrase in parentheses. -/
theorem IsBalanced.parens {phrase : Phrase α} (h : IsBalanced phrase) :
    IsBalanced (parens phrase) := by
  rintro _ value ⟨opening, closing, inner, rfl, hopening, hclosing, hinner⟩
  rw [lexemesOf_parens inner hopening hclosing]
  exact .parenthesised (h hinner)

end Phrase

/-! ### The phrases of the grammar -/

theorem isBalanced_word (text : String) : IsBalanced (word text) :=
  .single fun token span h ↦ by
    rw [Token.keyword?_eq_some_iff.mp h]
    simp [Lexeme.IsPlain]

theorem isBalanced_valType : IsBalanced Derivation.valType :=
  .single fun ⟨lexeme, span⟩ value h ↦ by
    cases lexeme <;> simp_all [Token.valType?, Lexeme.IsPlain]

theorem isBalanced_elemType : IsBalanced Derivation.elemType :=
  .single fun ⟨lexeme, span⟩ value h ↦ by
    cases lexeme <;> simp_all [Token.elemType?, Lexeme.IsPlain]

theorem isBalanced_unsigned : IsBalanced Derivation.unsigned :=
  .single fun ⟨lexeme, span⟩ value h ↦ by
    cases lexeme <;> simp_all [Token.unsigned?, Lexeme.IsPlain]

theorem isBalanced_id : IsBalanced Derivation.id :=
  .single fun token id h ↦ by
    rw [Token.id?_eq_some_iff.mp h]
    simp [Lexeme.IsPlain]

theorem isBalanced_index : IsBalanced Derivation.index :=
  .single fun ⟨lexeme, span⟩ value h ↦ by
    cases lexeme <;> simp_all [Token.index?, Lexeme.IsPlain]

theorem isBalanced_displayName : IsBalanced Derivation.displayName := by
  rintro _ name ⟨opening, head, text, closing, rfl, hopening, hhead, htext, hclosing, -⟩
  have hinner : Lexeme.Balanced ([head.lexeme] ++ [text.lexeme]) :=
    .append (.plain (by simp [Lexeme.IsPlain, hhead])) (.plain (by simp [Lexeme.IsPlain, htext]))
  have heq : lexemesOf [opening, head, text, closing] = _ :=
    lexemesOf_parens [head, text] hopening hclosing
  rw [heq]
  exact .parenthesised hinner

theorem isBalanced_limits : IsBalanced Derivation.limits :=
  (isBalanced_unsigned.both isBalanced_unsigned.optional).map _

theorem isBalanced_globalType : IsBalanced Derivation.globalType :=
  (isBalanced_valType.map _).either (((isBalanced_word "mut").both isBalanced_valType).map _).parens

theorem isBalanced_tableType : IsBalanced Derivation.tableType :=
  (isBalanced_limits.both isBalanced_elemType).map _

theorem isBalanced_memoryType : IsBalanced Derivation.memoryType :=
  (isBalanced_limits.both (isBalanced_word "shared").optional).map _

theorem isBalanced_namedParam : IsBalanced Derivation.namedParam :=
  ((isBalanced_id.optional.both (isBalanced_displayName.optional.both isBalanced_valType)).map
    _).only _

theorem isBalanced_group (allowsNames : Bool) : IsBalanced (Derivation.group allowsNames) :=
  (((isBalanced_word "param").both isBalanced_valType.many).map _).parens.either
    (((((isBalanced_word "param").both isBalanced_namedParam).map _).parens.only _).either
      (((isBalanced_word "result").both isBalanced_valType.many).map _).parens)

theorem isBalanced_signature (allowsNames : Bool) : IsBalanced (Derivation.signature allowsNames) :=
  ((isBalanced_group allowsNames).many.only _).map _

theorem isBalanced_functionType : IsBalanced Derivation.functionType :=
  ((isBalanced_word "func").both (isBalanced_signature true)).map _

theorem isBalanced_typeUse (allowsNames : Bool) : IsBalanced (Derivation.typeUse allowsNames) :=
  ((((isBalanced_word "type").both isBalanced_index).map _).parens.optional.both
    (isBalanced_signature allowsNames)).map _

theorem isBalanced_fieldOf (text : String) {declaration : Phrase Declaration}
    (h : IsBalanced declaration) : IsBalanced (Derivation.fieldOf text declaration) :=
  ((isBalanced_word text).both (isBalanced_id.optional.both h)).map _

/-- Fields are balanced. -/
theorem isBalanced_field : IsBalanced Derivation.field :=
  (isBalanced_fieldOf "type" (isBalanced_functionType.parens.map _)).either
    ((isBalanced_fieldOf "global" (isBalanced_globalType.map _)).either
      ((isBalanced_fieldOf "table" (isBalanced_tableType.map _)).either
        ((isBalanced_fieldOf "memory" (isBalanced_memoryType.map _)).either
          (isBalanced_fieldOf "func" ((isBalanced_typeUse true).map _)))))

/-- Modules are balanced. -/
theorem isBalanced_module : IsBalanced Derivation.module :=
  (((isBalanced_word "module").both
    (isBalanced_id.optional.both isBalanced_field.parens.many)).map _).parens.either
      (isBalanced_field.parens.many.map _)

end Grammar

end WatTypes
