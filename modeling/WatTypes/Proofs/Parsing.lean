import WatTypes.Proofs.Acceptance.Module

/-!
# The reader accepts exactly the grammar

Tokens whose only end of the input is the last one (`TokenList.EndsOnce`) are read as a module if
and only if the tokens before that end are one in the sense of the grammar as a relation, and what
is answered is what the tokens denote (`ofTokens_eq_ok_iff_module`). Reading is sound because a rule
passes only phrases, and complete because it accepts every phrase that the end of the input follows.
-/

set_option autoImplicit false
set_option relaxedAutoImplicit false

namespace WatTypes

open Grammar Rule

/-- Nothing but the end of the input is the end of the input. -/
def TokenList.EndsOnce (tokens : TokenList) : Prop :=
  ∀ token ∈ tokens.body, token.lexeme ≠ .endOfInput

instance (tokens : TokenList) : Decidable tokens.EndsOnce :=
  inferInstanceAs (Decidable (∀ token ∈ tokens.body, token.lexeme ≠ .endOfInput))

/-- From the first token of a source to its end. -/
def TokenList.span (tokens : TokenList) : Span :=
  let first := (Cursor.start tokens).current.span
  ⟨first.file, first.first, tokens.stop.last⟩

/-- Behind tokens that end once, a cursor at the end of the input has passed them all. -/
theorem TokenList.EndsOnce.eq_of_isAtEnd {tokens : TokenList} (h : tokens.EndsOnce)
    {taken : List Token} {there : Cursor} (hpasses : Cursor.Passes taken (.start tokens) there)
    (hstop : there.isAtEnd = true) : tokens.body = taken ∧ there.current.span = tokens.stop := by
  have hbody : tokens.body = taken ++ there.ahead := hpasses.ahead
  cases hahead : there.ahead with
  | nil =>
    have hspan : there.stop = tokens.stop := hpasses.stop
    exact ⟨by rw [hbody, hahead, List.append_nil], by simp [Cursor.current, Cursor.tokenAt,
      Cursor.endToken, hahead, hspan]⟩
  | cons token rest =>
    have hcurrent : there.current = token := by simp [Cursor.current, Cursor.tokenAt, hahead]
    rw [Cursor.isAtEnd, hcurrent, beq_iff_eq] at hstop
    exact absurd hstop (h token (by simp [hbody, hahead]))

/-- A module that is read is what the tokens denote. -/
theorem module_of_ofTokens {tokens : TokenList} (h : tokens.EndsOnce) {m : TypeModule}
    (hread : TypeModule.ofTokens tokens = .ok m) :
    Derivation.module tokens.body (m.id, m.fields) ∧ m.span = tokens.span := by
  obtain ⟨taken, hpasses, houtcome, -⟩ := reads_moduleParts (.start tokens)
  rw [TypeModule.ofTokens, module_apply] at hread
  rcases hrun : moduleParts (.start tokens) with ⟨outcome, there⟩
  rw [hrun] at hpasses houtcome
  rw [hrun] at hread
  cases outcome with
  | error error => cases hread
  | ok parts =>
    cases hstop : there.isAtEnd with
    | false =>
      simp only [hstop, Bool.false_eq_true, if_false] at hread
      cases hread
    | true =>
      obtain ⟨hbody, hspan⟩ := h.eq_of_isAtEnd hpasses hstop
      simp only [hstop, if_true, Except.ok.injEq] at hread
      subst hread
      refine ⟨?_, ?_⟩
      · rw [hbody]
        exact houtcome
      · rw [TokenList.span, hspan]

/-- Tokens that denote a module are read. -/
theorem ofTokens_of_module {tokens : TokenList} {parts : Option Id × List Field}
    (h : Derivation.module tokens.body parts) :
    TypeModule.ofTokens tokens = .ok ⟨parts.1, parts.2, tokens.span⟩ := by
  have hbody : (Cursor.start tokens).ahead = tokens.body ++ [] :=
    (List.append_nil tokens.body).symm
  obtain ⟨there, hpasses, hahead⟩ := Cursor.exists_passes hbody
  have hcurrent : there.current = ⟨.endOfInput, tokens.stop⟩ := by
    have hspan : there.stop = tokens.stop := hpasses.stop
    simp [Cursor.current, Cursor.tokenAt, Cursor.endToken, hahead, hspan]
  have hstop : there.isAtEnd = true := by simp [Cursor.isAtEnd, hcurrent]
  rw [TypeModule.ofTokens, module_apply, accepts_moduleParts h hpasses hstop]
  simp only [hstop, if_true, hcurrent]
  rfl

/-- Assumes: the end of the input stands at the end alone. The tokens of a source are read as a
module exactly where they are a module of the grammar that denotes its identifier and its fields,
and it spans the source from the first token to the end. -/
theorem ofTokens_eq_ok_iff_module (tokens : TokenList) (h : tokens.EndsOnce) (m : TypeModule) :
    TypeModule.ofTokens tokens = .ok m ↔
      Derivation.module tokens.body (m.id, m.fields) ∧ m.span = tokens.span := by
  constructor
  · exact module_of_ofTokens h
  · rintro ⟨hmodule, hspan⟩
    rw [ofTokens_of_module hmodule, ← hspan]

/-- The tokens of a memory that threads share. -/
def sharedMemoryTokens : TokenList :=
  ⟨[.opening, .keyword "memory", .integer "1", .keyword "shared", .closing].map bareToken,
    .single "" .first⟩

theorem ofTokens_sharedMemoryTokens : sharedMemoryTokens.EndsOnce ∧
    TypeModule.ofTokens sharedMemoryTokens = .ok
      ⟨none, [⟨none, .memory ⟨⟨1, none⟩, true⟩, .single "" .first⟩], .single "" .first⟩ := by
  have hends : sharedMemoryTokens.EndsOnce := by decide
  refine ⟨hends, (ofTokens_eq_ok_iff_module _ hends _).mpr ⟨.inr ⟨_, ?_, rfl⟩, rfl⟩⟩
  have hone : Derivation.unsigned [bareToken (.integer "1")] 1 := ⟨_, rfl, by decide⟩
  have hlimits : Derivation.limits [bareToken (.integer "1")] ⟨1, none⟩ :=
    ⟨(1, none), ⟨[_], [], rfl, hone, rfl⟩, rfl⟩
  have hmemory : FieldKind.memory.phrase
      [bareToken (.integer "1"), bareToken (.keyword "shared")] (.memory ⟨⟨1, none⟩, true⟩) :=
    ⟨_, ⟨(_, some (.single "" .first)), ⟨[_], [_], rfl, hlimits, _, rfl, rfl⟩, rfl⟩, rfl⟩
  have hfield : Derivation.field [bareToken (.keyword "memory"), bareToken (.integer "1"),
      bareToken (.keyword "shared")] ⟨none, .memory ⟨⟨1, none⟩, true⟩, .single "" .first⟩ :=
    (field_iff_exists_kind _ _).mpr ⟨.memory, (_, none, _),
      ⟨[_], [_, _], rfl, ⟨_, rfl, rfl⟩, [], [_, _], rfl, rfl, hmemory⟩, rfl⟩
  have hgroup : Phrase.parens Derivation.field sharedMemoryTokens.body _ :=
    ⟨_, _, _, rfl, rfl, rfl, hfield⟩
  have hfields := Phrase.Many.cons hgroup .nil
  rwa [List.append_nil] at hfields

end WatTypes
