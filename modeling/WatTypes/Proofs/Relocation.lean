import WatTypes.Proofs.Reading.Module
import WatTypes.Tree.Relocation

/-!
# Phrases at other places

A phrase relocates (`Phrase.Relocates`) if its tokens with their spans moved are such a phrase as
well, which denotes the same with its spans moved. Every way to put phrases together keeps this, and
so it holds of the phrases of the grammar, up to the fields of a module (`relocates_fields`).
-/

set_option autoImplicit false
set_option relaxedAutoImplicit false

namespace WatTypes

/-! ### Groups of signatures -/

namespace SignatureGroup

variable (move : Span → Span)

theorem params_relocated (group : SignatureGroup) :
    (group.relocated move).params = group.params.map (Param.relocated move) := by
  cases group with
  | anonymous types => simp [relocated, params, Param.relocated, Param.anonymous]
  | _ => rfl

theorem resultTypes_relocated (group : SignatureGroup) :
    (group.relocated move).resultTypes = group.resultTypes := by
  cases group <;> rfl

theorem isResults_relocated (group : SignatureGroup) :
    (group.relocated move).isResults = group.isResults := by
  cases group <;> rfl

theorem inOrder_relocated (groups : List SignatureGroup) :
    InOrder (groups.map (relocated move)) ↔ InOrder groups := by
  simp [InOrder, List.pairwise_map, resultTypes_relocated, isResults_relocated]

end SignatureGroup

/-- A signature with its spans moved is what its groups with their spans moved denote. -/
theorem FunctionType.ofGroups_relocated (move : Span → Span) (groups : List SignatureGroup) :
    ofGroups (groups.map (SignatureGroup.relocated move)) = (ofGroups groups).relocated move := by
  simp [ofGroups, relocated, List.map_flatMap, List.flatMap_map,
    SignatureGroup.params_relocated, SignatureGroup.resultTypes_relocated]

namespace Grammar

open Phrase

/-! ### Phrases -/

namespace Phrase

variable {α β : Type} {move : Span → Span} {phrase : Phrase α} {moved : α → α}

/-- The tokens of a phrase with their spans moved are such a phrase, and denote the same with its
spans moved. -/
def Relocates (move : Span → Span) (phrase : Phrase α) (moved : α → α) : Prop :=
  ∀ ⦃tokens value⦄, phrase tokens value →
    phrase (tokens.map (Token.relocated move)) (moved value)

/-- Assumes: a token with its span moved has its meaning moved. A single token. -/
theorem Relocates.single {meaning : Token → Option α}
    (h : ∀ token value, meaning token = some value →
      meaning (token.relocated move) = some (moved value)) :
    Relocates move (single meaning) moved := by
  rintro _ value ⟨token, rfl, hmeaning⟩
  exact ⟨token.relocated move, rfl, h token value hmeaning⟩

/-- Two phrases one after the other. -/
theorem Relocates.both {second : Phrase β} {shifted : β → β} (hfirst : Relocates move phrase moved)
    (hsecond : Relocates move second shifted) :
    Relocates move (both phrase second) (Prod.map moved shifted) := by
  rintro _ value ⟨left, right, rfl, hleft, hright⟩
  exact ⟨_, _, List.map_append, hfirst hleft, hsecond hright⟩

/-- A phrase that may be missing. -/
theorem Relocates.optional (h : Relocates move phrase moved) :
    Relocates move (optional phrase) (Option.map moved) := by
  intro tokens value hphrase
  cases value with
  | none => exact List.map_eq_nil_iff.mpr hphrase
  | some present => exact h hphrase

/-- Any number of phrases. -/
theorem Relocates.many (h : Relocates move phrase moved) :
    Relocates move (Many phrase) (List.map moved) := by
  intro tokens values hmany
  induction hmany with
  | nil => exact .nil
  | cons hfirst _ ih =>
    rw [List.map_append, List.map_cons]
    exact .cons (h hfirst) ih

/-- Assumes: a meaning made from what is moved is moved. A phrase with another meaning. -/
theorem Relocates.map {shifted : β → β} (meaning : α → β) (h : Relocates move phrase moved)
    (hmeaning : ∀ value, meaning (moved value) = shifted (meaning value)) :
    Relocates move (map meaning phrase) shifted := by
  rintro tokens _ ⟨inner, hinner, rfl⟩
  exact ⟨moved inner, h hinner, hmeaning inner⟩

/-- One phrase or another one. -/
theorem Relocates.either {second : Phrase α} (hfirst : Relocates move phrase moved)
    (hsecond : Relocates move second moved) : Relocates move (either phrase second) moved := by
  rintro tokens value (hphrase | hphrase)
  · exact .inl (hfirst hphrase)
  · exact .inr (hsecond hphrase)

/-- Assumes: what is allowed is allowed where it is moved. Some phrases of a kind. -/
theorem Relocates.only {allowed : α → Prop} (h : Relocates move phrase moved)
    (hallowed : ∀ value, allowed value → allowed (moved value)) :
    Relocates move (only allowed phrase) moved :=
  fun _ value hphrase ↦ ⟨h hphrase.1, hallowed value hphrase.2⟩

/-- A phrase in parentheses. -/
theorem Relocates.parens (h : Relocates move phrase moved) :
    Relocates move (parens phrase) moved := by
  rintro _ value ⟨opening, closing, inner, rfl, hopening, hclosing, hinner⟩
  exact ⟨opening.relocated move, closing.relocated move, _, by simp, hopening, hclosing, h hinner⟩

end Phrase

/-! ### The phrases of the grammar -/

variable (move : Span → Span)

theorem relocates_word (text : String) : Relocates move (word text) move :=
  .single fun token span h ↦ by
    rw [Token.keyword?_eq_some_iff] at h ⊢
    rw [h]
    rfl

theorem relocates_valType : Relocates move Derivation.valType id := .single fun _ _ h ↦ h

theorem relocates_elemType : Relocates move Derivation.elemType id := .single fun _ _ h ↦ h

theorem relocates_unsigned : Relocates move Derivation.unsigned id := .single fun _ _ h ↦ h

theorem relocates_id : Relocates move Derivation.id (Id.relocated move) :=
  .single fun token id h ↦ by
    rw [Token.id?_eq_some_iff] at h ⊢
    rw [h]
    rfl

theorem relocates_index : Relocates move Derivation.index (Index.relocated move) :=
  .single fun ⟨lexeme, span⟩ index h ↦ by
    cases lexeme with
    | integer literal =>
      obtain ⟨value, hvalue, rfl⟩ := Option.map_eq_some_iff.mp h
      exact Option.map_eq_some_iff.mpr ⟨value, hvalue, rfl⟩
    | id name =>
      cases h
      rfl
    | _ => cases h

theorem relocates_displayName :
    Relocates move Derivation.displayName (DisplayName.relocated move) := by
  rintro _ name ⟨opening, head, text, closing, rfl, hopening, hhead, htext, hclosing, hspan⟩
  exact ⟨opening.relocated move, head.relocated move, text.relocated move, closing.relocated move,
    rfl, hopening, hhead, htext, hclosing, congrArg move hspan⟩

theorem relocates_limits : Relocates move Derivation.limits id := by
  refine ((relocates_unsigned move).both (relocates_unsigned move).optional).map _ ?_
  rintro ⟨least, greatest⟩
  simp

theorem relocates_globalType : Relocates move Derivation.globalType id := by
  refine ((relocates_valType move).map _ ?_).either
    (((relocates_word move "mut").both (relocates_valType move)).map _ ?_).parens
  · exact fun _ ↦ rfl
  · exact fun _ ↦ rfl

theorem relocates_tableType : Relocates move Derivation.tableType id :=
  ((relocates_limits move).both (relocates_elemType move)).map _ fun _ ↦ rfl

theorem relocates_memoryType : Relocates move Derivation.memoryType id := by
  refine ((relocates_limits move).both (relocates_word move "shared").optional).map _ ?_
  rintro ⟨limits, shared⟩
  simp

theorem relocates_types : Relocates move (Many Derivation.valType) id := by
  have hmany := (relocates_valType move).many
  rwa [List.map_id_fun] at hmany

theorem relocates_namedParam : Relocates move Derivation.namedParam (Param.relocated move) := by
  refine (((relocates_id move).optional.both
    ((relocates_displayName move).optional.both (relocates_valType move))).map _ ?_).only ?_
  · exact fun _ ↦ rfl
  · intro param hnamed
    rw [Param.isNamed_relocated, hnamed]

theorem relocates_group (allowsNames : Bool) :
    Relocates move (Derivation.group allowsNames) (SignatureGroup.relocated move) := by
  refine .either (((relocates_word move "param").both (relocates_types move)).map _ ?_).parens
    (.either (.only (((relocates_word move "param").both (relocates_namedParam move)).map _
      ?_).parens fun _ h ↦ h)
        (((relocates_word move "result").both (relocates_types move)).map _ ?_).parens)
  all_goals exact fun _ ↦ rfl

theorem relocates_signature (allowsNames : Bool) :
    Relocates move (Derivation.signature allowsNames) (FunctionType.relocated move) :=
  ((relocates_group move allowsNames).many.only fun groups h ↦
    (SignatureGroup.inOrder_relocated move groups).mpr h).map _
      (FunctionType.ofGroups_relocated move)

theorem relocates_functionType :
    Relocates move Derivation.functionType (FunctionType.relocated move) :=
  ((relocates_word move "func").both (relocates_signature move true)).map _ fun _ ↦ rfl

theorem relocates_typeUse (allowsNames : Bool) :
    Relocates move (Derivation.typeUse allowsNames) (TypeUse.relocated move) := by
  have hreference : Relocates move (parens (Phrase.map Prod.snd (both (word "type")
      Derivation.index))) (Index.relocated move) := by
    refine (((relocates_word move "type").both (relocates_index move)).map _ ?_).parens
    exact fun _ ↦ rfl
  exact (hreference.optional.both (relocates_signature move allowsNames)).map _ fun _ ↦ rfl

/-- What a kind of field declares. -/
theorem FieldKind.relocates_phrase (kind : FieldKind) :
    Relocates move kind.phrase (Declaration.relocated move) := by
  cases kind with
  | type => exact (relocates_functionType move).parens.map _ fun _ ↦ rfl
  | global => exact (relocates_globalType move).map _ fun _ ↦ rfl
  | table => exact (relocates_tableType move).map _ fun _ ↦ rfl
  | memory => exact (relocates_memoryType move).map _ fun _ ↦ rfl
  | func => exact (relocates_typeUse move true).map _ fun _ ↦ rfl

theorem relocates_field : Relocates move Derivation.field (Field.relocated move) := by
  have hfield (kind : FieldKind) :
      Relocates move (Derivation.fieldOf kind.word kind.phrase) (Field.relocated move) :=
    ((relocates_word move kind.word).both
      ((relocates_id move).optional.both (kind.relocates_phrase move))).map _ fun _ ↦ rfl
  exact (hfield .type).either ((hfield .global).either ((hfield .table).either
    ((hfield .memory).either (hfield .func))))

/-- Fields with their spans moved are the fields of their tokens with their spans moved. -/
theorem relocates_fields :
    Relocates move Derivation.fields (List.map (Field.relocated move)) :=
  (relocates_field move).parens.many

end Grammar

end WatTypes
