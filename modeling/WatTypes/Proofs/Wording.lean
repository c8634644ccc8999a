import WatTypes.Proofs.Balance

/-!
# The wording of phrases

The lexemes of a phrase are words that the grammar reserves, names, numbers and texts
(`Lexeme.InVocabulary`), in parentheses of which no more than a given number are open at once
(`Lexeme.Wording`). Writing phrases one after the other nests no deeper than each of them, and
parentheses around a phrase nest one deeper. Counted through the productions this comes to two for a
signature, whose parameters may bear display names, to three for the inside of a field, and to five
for a module in parentheses (`wordedIn_module`).
-/

set_option autoImplicit false
set_option relaxedAutoImplicit false

namespace WatTypes

/-! ### Lexemes -/

/-- The words that the grammar reserves. -/
def reservedWords : List String :=
  ["module", "type", "func", "global", "table", "memory", "param", "result", "mut", "shared"] ++
    ValType.all.map ValType.keyword ++ [anyfunc]

namespace Lexeme

/-- A lexeme that the grammar has a use for. -/
def InVocabulary : Lexeme → Prop
  | .keyword word => word ∈ reservedWords
  | .float _ => False
  | .endOfInput => False
  | _ => True

/-- Lexemes that the grammar has a use for, with balanced parentheses, no prefix of which leaves
more than `depth` of them open. -/
structure Wording (depth : Nat) (lexemes : List Lexeme) : Prop where
  /-- The grammar has a use for all of them. -/
  vocabulary : ∀ lexeme ∈ lexemes, lexeme.InVocabulary
  /-- No prefix leaves too many parentheses open. -/
  bounded : ∀ front, front <+: lexemes → front.count .opening ≤ front.count .closing + depth
  /-- All parentheses are closed. -/
  closed : lexemes.count .opening = lexemes.count .closing

section

variable {depth : Nat} {first second inner : List Lexeme}

theorem Wording.nil (depth : Nat) : Wording depth [] where
  vocabulary := fun _ hmem ↦ (List.not_mem_nil hmem).elim
  bounded := by
    intro front hfront
    rw [List.prefix_nil.mp hfront]
    exact Nat.zero_le _
  closed := rfl

theorem Wording.mono {greater : Nat} (h : Wording depth first) (hle : depth ≤ greater) :
    Wording greater first where
  vocabulary := h.vocabulary
  bounded := fun front hfront ↦ Nat.le_trans (h.bounded front hfront) (Nat.add_le_add_left hle _)
  closed := h.closed

/-- A single lexeme that is no parenthesis. -/
theorem Wording.single {lexeme : Lexeme} (hvocabulary : lexeme.InVocabulary)
    (hplain : lexeme.IsPlain) : Wording 0 [lexeme] where
  vocabulary := List.forall_mem_singleton.mpr hvocabulary
  bounded := by
    intro front hfront
    have hcount : [lexeme].count .opening = 0 :=
      List.count_eq_zero.mpr fun hmem ↦ hplain.1 (List.mem_singleton.mp hmem).symm
    have hfewer := hfront.sublist.count_le .opening
    omega
  closed := by
    rw [List.count_eq_zero.mpr fun hmem ↦ hplain.1 (List.mem_singleton.mp hmem).symm,
      List.count_eq_zero.mpr fun hmem ↦ hplain.2.1 (List.mem_singleton.mp hmem).symm]

/-- Lexemes behind others. What the first ones open they close. -/
theorem Wording.append (hfirst : Wording depth first) (hsecond : Wording depth second) :
    Wording depth (first ++ second) where
  vocabulary := List.forall_mem_append.mpr ⟨hfirst.vocabulary, hsecond.vocabulary⟩
  bounded := by
    rintro front ⟨behind, hwhole⟩
    rcases List.append_eq_append_iff.mp hwhole with ⟨others, hinside, -⟩ | ⟨rest, rfl, hrest⟩
    · exact hfirst.bounded front ⟨others, hinside.symm⟩
    · have hbehind := hsecond.bounded rest ⟨behind, hrest.symm⟩
      have hclosed := hfirst.closed
      simp only [List.count_append]
      omega
  closed := by
    rw [List.count_append, List.count_append, hfirst.closed, hsecond.closed]

/-- Lexemes in parentheses nest one deeper. -/
theorem Wording.parenthesised (h : Wording depth inner) :
    Wording (depth + 1) (Lexeme.parenthesised inner) where
  vocabulary := by
    have hends : Lexeme.opening.InVocabulary ∧ Lexeme.closing.InVocabulary := ⟨trivial, trivial⟩
    simpa [Lexeme.parenthesised, or_imp, forall_and, hends] using h.vocabulary
  bounded := by
    intro front hfront
    rcases List.prefix_cons_iff.mp hfront with rfl | ⟨rest, rfl, hrest⟩
    · exact Nat.zero_le _
    · have hopened : (Lexeme.opening :: rest).count .opening = rest.count .opening + 1 :=
        List.count_cons_self
      have hclosed : (Lexeme.opening :: rest).count .closing = rest.count .closing :=
        List.count_cons_of_ne (by decide)
      rcases List.prefix_concat_iff.mp hrest with rfl | hinside
      · have hwhole := h.closed
        have hlast : [Lexeme.closing].count .opening = 0 ∧ [Lexeme.closing].count .closing = 1 :=
          ⟨rfl, rfl⟩
        rw [hopened, hclosed, List.count_append, List.count_append]
        omega
      · have hinner := h.bounded rest hinside
        omega
  closed := by
    simp [Lexeme.parenthesised, h.closed]

end

end Lexeme

namespace Grammar

open Phrase

/-! ### Phrases -/

namespace Phrase

variable {α β : Type} {phrase : Phrase α} {depth : Nat}

/-- All phrases of a kind are worded in the vocabulary, with at most so many open parentheses. -/
def WordedIn (phrase : Phrase α) (depth : Nat) : Prop :=
  ∀ ⦃tokens value⦄, phrase tokens value → Lexeme.Wording depth (lexemesOf tokens)

/-- Assumes: only plain lexemes of the vocabulary have a meaning. A single token. -/
theorem WordedIn.single {meaning : Token → Option α}
    (h : ∀ token value, meaning token = some value →
      token.lexeme.InVocabulary ∧ token.lexeme.IsPlain) : WordedIn (single meaning) 0 := by
  rintro _ value ⟨token, rfl, hmeaning⟩
  obtain ⟨hvocabulary, hplain⟩ := h token value hmeaning
  exact .single hvocabulary hplain

theorem WordedIn.mono {greater : Nat} (h : WordedIn phrase depth) (hle : depth ≤ greater) :
    WordedIn phrase greater :=
  fun _ _ hphrase ↦ (h hphrase).mono hle

theorem WordedIn.both {second : Phrase β} (hfirst : WordedIn phrase depth)
    (hsecond : WordedIn second depth) : WordedIn (both phrase second) depth := by
  rintro _ value ⟨left, right, rfl, hleft, hright⟩
  rw [lexemesOf_append]
  exact (hfirst hleft).append (hsecond hright)

theorem WordedIn.optional (h : WordedIn phrase depth) : WordedIn (optional phrase) depth := by
  rintro tokens (_ | present) hphrase
  · cases hphrase
    exact .nil depth
  · exact h hphrase

theorem WordedIn.many (h : WordedIn phrase depth) : WordedIn (Many phrase) depth := by
  intro tokens values hmany
  induction hmany with
  | nil => exact .nil depth
  | cons hfirst _ ih =>
    rw [lexemesOf_append]
    exact (h hfirst).append ih

theorem WordedIn.map (meaning : α → β) (h : WordedIn phrase depth) :
    WordedIn (map meaning phrase) depth := by
  rintro tokens _ ⟨inner, hinner, rfl⟩
  exact h hinner

theorem WordedIn.either {second : Phrase α} (hfirst : WordedIn phrase depth)
    (hsecond : WordedIn second depth) : WordedIn (either phrase second) depth := by
  rintro tokens value (h | h)
  · exact hfirst h
  · exact hsecond h

theorem WordedIn.only (allowed : α → Prop) (h : WordedIn phrase depth) :
    WordedIn (only allowed phrase) depth :=
  fun _ _ hphrase ↦ h hphrase.1

/-- A phrase in parentheses nests one deeper. -/
theorem WordedIn.parens (h : WordedIn phrase depth) : WordedIn (parens phrase) (depth + 1) := by
  rintro _ value ⟨opening, closing, inner, rfl, hopening, hclosing, hinner⟩
  rw [lexemesOf_parens inner hopening hclosing]
  exact (h hinner).parenthesised

end Phrase

/-! ### The phrases of the grammar -/

/-- The keywords of value types are reserved. -/
theorem mem_reservedWords_of_valType {word : String} {ty : ValType}
    (h : ValType.ofKeyword? word = some ty) : word ∈ reservedWords := by
  unfold ValType.ofKeyword? at h
  split at h
  · rename_i hword
    subst hword
    decide
  · have hkeyword := List.find?_some h
    rw [beq_iff_eq] at hkeyword
    rw [← hkeyword]
    cases ty <;> decide

/-- The keywords of element types are reserved. -/
theorem mem_reservedWords_of_elemType {word : String} {ty : ElemType}
    (h : ElemType.ofKeyword? word = some ty) : word ∈ reservedWords := by
  unfold ElemType.ofKeyword? at h
  split at h
  · rename_i hword
    subst hword
    decide
  · have hkeyword := List.find?_some h
    rw [beq_iff_eq] at hkeyword
    rw [← hkeyword]
    cases ty <;> decide

theorem wordedIn_word {text : String} (h : text ∈ reservedWords) : WordedIn (word text) 0 :=
  .single fun token span hword ↦ by
    rw [Token.keyword?_eq_some_iff.mp hword]
    exact ⟨h, by simp [Lexeme.IsPlain]⟩

theorem wordedIn_valType : WordedIn Derivation.valType 0 :=
  .single fun ⟨lexeme, span⟩ value h ↦ by
    cases lexeme with
    | keyword word => exact ⟨mem_reservedWords_of_valType h, by simp [Lexeme.IsPlain]⟩
    | _ => cases h

theorem wordedIn_elemType : WordedIn Derivation.elemType 0 :=
  .single fun ⟨lexeme, span⟩ value h ↦ by
    cases lexeme with
    | keyword word => exact ⟨mem_reservedWords_of_elemType h, by simp [Lexeme.IsPlain]⟩
    | _ => cases h

theorem wordedIn_unsigned : WordedIn Derivation.unsigned 0 :=
  .single fun ⟨lexeme, span⟩ value h ↦ by
    cases lexeme with
    | integer literal => exact ⟨trivial, by simp [Lexeme.IsPlain]⟩
    | _ => cases h

theorem wordedIn_id : WordedIn Derivation.id 0 :=
  .single fun token id h ↦ by
    rw [Token.id?_eq_some_iff.mp h]
    exact ⟨trivial, by simp [Lexeme.IsPlain]⟩

theorem wordedIn_index : WordedIn Derivation.index 0 :=
  .single fun ⟨lexeme, span⟩ value h ↦ by
    cases lexeme with
    | integer literal => exact ⟨trivial, by simp [Lexeme.IsPlain]⟩
    | id name => exact ⟨trivial, by simp [Lexeme.IsPlain]⟩
    | _ => cases h

theorem wordedIn_displayName : WordedIn Derivation.displayName 1 := by
  rintro _ name ⟨opening, head, text, closing, rfl, hopening, hhead, htext, hclosing, -⟩
  have hinner : Lexeme.Wording 0 ([head.lexeme] ++ [text.lexeme]) := by
    rw [hhead, htext]
    exact .append (.single trivial (by simp [Lexeme.IsPlain]))
      (.single trivial (by simp [Lexeme.IsPlain]))
  have heq : lexemesOf [opening, head, text, closing] = _ :=
    lexemesOf_parens [head, text] hopening hclosing
  rw [heq]
  exact hinner.parenthesised

theorem wordedIn_limits : WordedIn Derivation.limits 0 :=
  (wordedIn_unsigned.both wordedIn_unsigned.optional).map _

theorem wordedIn_globalType : WordedIn Derivation.globalType 1 :=
  ((wordedIn_valType.mono (Nat.zero_le 1)).map _).either
    (((wordedIn_word (by decide)).both wordedIn_valType).map _).parens

theorem wordedIn_tableType : WordedIn Derivation.tableType 0 :=
  (wordedIn_limits.both wordedIn_elemType).map _

theorem wordedIn_memoryType : WordedIn Derivation.memoryType 0 :=
  (wordedIn_limits.both (wordedIn_word (by decide)).optional).map _

/-- A group nests two deep, for the display name of its parameter. -/
theorem wordedIn_group (allowsNames : Bool) : WordedIn (Derivation.group allowsNames) 2 := by
  have hnamed : WordedIn Derivation.namedParam 1 :=
    (((wordedIn_id.mono (Nat.zero_le 1)).optional.both
      (wordedIn_displayName.optional.both (wordedIn_valType.mono (Nat.zero_le 1)))).map _).only _
  have htypes {text : String} (h : text ∈ reservedWords) :
      WordedIn (both (word text) (Many Derivation.valType)) 1 :=
    ((wordedIn_word h).both wordedIn_valType.many).mono (Nat.zero_le 1)
  have hparam : WordedIn (word "param") 1 := (wordedIn_word (by decide)).mono (Nat.zero_le 1)
  exact (((htypes (by decide)).map _).parens).either
    ((((hparam.both hnamed).map _).parens.only _).either ((htypes (by decide)).map _).parens)

theorem wordedIn_signature (allowsNames : Bool) :
    WordedIn (Derivation.signature allowsNames) 2 :=
  ((wordedIn_group allowsNames).many.only _).map _

theorem wordedIn_functionType : WordedIn Derivation.functionType 2 :=
  (((wordedIn_word (by decide)).mono (Nat.zero_le 2)).both (wordedIn_signature true)).map _

theorem wordedIn_typeUse (allowsNames : Bool) : WordedIn (Derivation.typeUse allowsNames) 2 := by
  have hreference : WordedIn (parens (Phrase.map Prod.snd (both (word "type")
      Derivation.index))) 1 := (((wordedIn_word (by decide)).both wordedIn_index).map _).parens
  exact ((hreference.mono (by decide)).optional.both (wordedIn_signature allowsNames)).map _

/-- The inside of a field nests three deep at most, for the signature of a type. -/
theorem wordedIn_field : WordedIn Derivation.field 3 := by
  have hfield {text : String} {declaration : Phrase Declaration} (htext : text ∈ reservedWords)
      (h : WordedIn declaration 3) : WordedIn (Derivation.fieldOf text declaration) 3 :=
    (((wordedIn_word htext).mono (Nat.zero_le 3)).both
      ((wordedIn_id.mono (Nat.zero_le 3)).optional.both h)).map _
  exact (hfield (by decide) (wordedIn_functionType.parens.map _)).either
    ((hfield (by decide) ((wordedIn_globalType.mono (by decide)).map _)).either
      ((hfield (by decide) ((wordedIn_tableType.mono (by decide)).map _)).either
        ((hfield (by decide) ((wordedIn_memoryType.mono (by decide)).map _)).either
          (hfield (by decide) (((wordedIn_typeUse true).mono (by decide)).map _)))))

/-- A module nests five deep at most. -/
theorem wordedIn_module : WordedIn Derivation.module 5 := by
  have hfields : WordedIn Derivation.fields 4 := wordedIn_field.parens.many
  exact ((((wordedIn_word (by decide)).mono (Nat.zero_le 4)).both
    ((wordedIn_id.mono (Nat.zero_le 4)).optional.both hfields)).map _).parens.either
      ((hfields.mono (by decide)).map _)

end Grammar

end WatTypes
