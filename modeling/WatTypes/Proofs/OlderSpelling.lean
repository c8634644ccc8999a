import Mathlib.Data.List.Forall2
import Mathlib.Data.List.Infix
import WatTypes.Canonical
import WatTypes.Grammar.Production
import WatTypes.Proofs.Reading.Module

/-!
# The older spelling of function references

The reserved word `anyfunc` stands for `funcref`. Tokens of which some are spelled the other way
(`TokenList.respelledAt`) are read by two runs of the same rules. The runs go side by side: in
places that differ in such spellings only (`Cursor.Respells`) they answer alike or fail alike, and
stop in such places again (`Step.RunsAlike`). Runs go side by side one after another and repeated,
hence in every rule of the grammar (`ignoresSpelling_rule`), at every place where either word may
stand and at every other. So modules are read alike from respelled tokens: an error is the same but
for the token that it has found, and no alternative that it lists mentions the older spelling
(`ofTokens_respelledAt`).
-/

set_option autoImplicit false
set_option relaxedAutoImplicit false

namespace WatTypes

/-! ### Tokens that are spelled the other way -/

/-- The same lexeme, with the two words for function references exchanged. -/
def Lexeme.respelled : Lexeme → Lexeme
  | .keyword word =>
    if word = anyfunc then .keyword ValType.funcref.keyword
    else if word = ValType.funcref.keyword then .keyword anyfunc
    else .keyword word
  | lexeme => lexeme

/-- The same token at its place, with the two words for function references exchanged. -/
def Token.respelled (token : Token) : Token := ⟨token.lexeme.respelled, token.span⟩

/-- The same tokens, with the two words for function references exchanged at some positions. -/
def TokenList.respelledAt (chosen : Nat → Bool) (tokens : TokenList) : TokenList :=
  ⟨tokens.body.mapIdx fun position token ↦ if chosen position then token.respelled else token,
    tokens.stop⟩

/-- The two words for function references. -/
def funcrefWords : List String := [anyfunc, ValType.funcref.keyword]

namespace Token

/-- A token is another one, or they are the two words for function references at one place. -/
inductive Respells : Token → Token → Prop
  /-- The tokens are the same. -/
  | same (token : Token) : Respells token token
  /-- The older word takes the place of the newer one. -/
  | older (span : Span) :
    Respells ⟨.keyword ValType.funcref.keyword, span⟩ ⟨.keyword anyfunc, span⟩
  /-- The newer word takes the place of the older one. -/
  | newer (span : Span) :
    Respells ⟨.keyword anyfunc, span⟩ ⟨.keyword ValType.funcref.keyword, span⟩

theorem respells_respelled (token : Token) : Respells token token.respelled := by
  obtain ⟨lexeme, span⟩ := token
  cases lexeme with
  | keyword word =>
    simp only [respelled, Lexeme.respelled]
    split
    · subst word
      exact .newer span
    split
    · subst word
      exact .older span
    · exact .same _
  | _ => exact .same _

/-- What makes no difference between the two words is the same of both tokens. -/
theorem Respells.apply_eq {token other : Token} (h : Respells token other) {α : Type}
    (meaning : Token → α) (hwords : ∀ span, meaning ⟨.keyword anyfunc, span⟩ =
      meaning ⟨.keyword ValType.funcref.keyword, span⟩) :
    meaning other = meaning token := by
  cases h with
  | same => rfl
  | older span => exact hwords span
  | newer span => exact (hwords span).symm

/-- Every other reserved word is told from both of them. -/
theorem keyword?_funcrefWords {word : String} (hword : word ∉ funcrefWords) (span : Span) :
    Token.keyword? word ⟨.keyword anyfunc, span⟩ =
      Token.keyword? word ⟨.keyword ValType.funcref.keyword, span⟩ := by
  have hne {spelling : String} (hspelling : spelling ∈ funcrefWords) : spelling ≠ word :=
    fun heq ↦ hword (heq ▸ hspelling)
  simp [keyword?, hne List.mem_cons_self, hne (List.mem_cons_of_mem _ List.mem_cons_self)]

end Token

/-! ### Places that differ in spellings -/

namespace Cursor

/-- The tokens ahead of two cursors differ in the spelling of function references only, and as many
tokens are behind them. -/
structure Respells (here other : Cursor) : Prop where
  /-- The tokens ahead differ in such spellings. -/
  ahead : List.Forall₂ Token.Respells here.ahead other.ahead
  /-- The cursors have passed as many tokens. -/
  position_eq : other.position = here.position
  /-- The input ends at the same place. -/
  stop_eq : other.stop = here.stop

theorem Respells.refl (here : Cursor) : Respells here here :=
  ⟨List.forall₂_same.mpr fun token _ ↦ .same token, rfl, rfl⟩

variable {here other : Cursor} (h : Respells here other)

include h

theorem Respells.tokenAt (distance : Nat) :
    Token.Respells (here.tokenAt distance) (other.tokenAt distance) := by
  obtain ⟨behind, ahead, stop⟩ := here
  obtain ⟨behind', ahead', stop'⟩ := other
  obtain ⟨hahead, -, rfl⟩ := h
  change List.Forall₂ Token.Respells ahead ahead' at hahead
  simp only [Cursor.tokenAt, Cursor.endToken]
  induction hahead generalizing distance with
  | nil => exact .same _
  | cons hfirst _ ih =>
    cases distance with
    | zero => exact hfirst
    | succ distance => simpa using ih distance

theorem Respells.advance : Respells here.advance other.advance := by
  obtain ⟨behind, ahead, stop⟩ := here
  obtain ⟨behind', ahead', stop'⟩ := other
  obtain ⟨hahead, hposition, hstop⟩ := h
  cases hahead with
  | nil => exact ⟨.nil, hposition, hstop⟩
  | cons hfirst hrest => exact ⟨hrest, congrArg (· + 1) hposition, hstop⟩

theorem Respells.length_ahead_eq : other.ahead.length = here.ahead.length :=
  h.ahead.length_eq.symm

/-- The next token stands at the same place. -/
theorem Respells.span_eq : other.current.span = here.current.span :=
  (h.tokenAt 0).apply_eq Token.span fun _ ↦ rfl

/-- An element that is neither of the two words shows at the same places. -/
theorem Respells.shows_eq {element : Element} (helement : element ∉ funcrefWords.map .keyword)
    (distance : Nat) : other.shows distance element = here.shows distance element := by
  have hnext := h.tokenAt distance
  cases element with
  | keyword word =>
    have hword : word ∉ funcrefWords := fun hmem ↦ helement (List.mem_map_of_mem hmem)
    exact congrArg Option.isSome (hnext.apply_eq _ (Token.keyword?_funcrefWords hword))
  | unsigned => exact hnext.apply_eq (fun token ↦ token.unsigned?.isSome) fun _ ↦ rfl
  | id => exact hnext.apply_eq (fun token ↦ token.id?.isSome) fun _ ↦ rfl
  | string => exact hnext.apply_eq (fun token ↦ token.string?.isSome) fun _ ↦ rfl
  | index => exact hnext.apply_eq (fun token ↦ token.index?.isSome) fun _ ↦ rfl
  | displayName =>
    have hopening := hnext.apply_eq (fun token ↦ token.lexeme == .opening) fun _ ↦ rfl
    have hhead := (h.tokenAt (distance + 1)).apply_eq
      (fun token ↦ token.lexeme == .annotationHead "name") fun _ ↦ rfl
    exact congrArg₂ and hopening hhead

/-- A group opens with the same element, if that is neither of the two words. -/
theorem Respells.opensWith_eq {element : Element} (helement : element ∉ funcrefWords.map .keyword) :
    other.opensWith element = here.opensWith element :=
  congrArg₂ and ((h.tokenAt 0).apply_eq (fun token ↦ token.lexeme == .opening) fun _ ↦ rfl)
    (h.shows_eq helement 1)

theorem Respells.opensSignatureGroup_eq : other.opensSignatureGroup = here.opensSignatureGroup :=
  congrArg₂ or (h.opensWith_eq (by decide)) (h.opensWith_eq (by decide))

theorem Respells.isGroupEnd_eq : other.isGroupEnd = here.isGroupEnd :=
  (h.tokenAt 0).apply_eq (fun token ↦ token.lexeme == .closing || token.lexeme == .endOfInput)
    fun _ ↦ rfl

theorem Respells.isAtEnd_eq : other.isAtEnd = here.isAtEnd :=
  (h.tokenAt 0).apply_eq (fun token ↦ token.lexeme == .endOfInput) fun _ ↦ rfl

end Cursor

/-! ### Runs side by side -/

namespace Step

variable {ε σ α β : Type} {states : σ → σ → Prop} {errors : ε → ε → Prop}

/-- Two runs end alike: with the same answer or with related errors, in related states. -/
inductive EndsAlike (states : σ → σ → Prop) (errors : ε → ε → Prop) :
    Except ε α × σ → Except ε α × σ → Prop
  /-- Both runs answer the same. -/
  | ok {there behind : σ} (answer : α) : states there behind →
    EndsAlike states errors (.ok answer, there) (.ok answer, behind)
  /-- Both runs fail. -/
  | error {there behind : σ} {error other : ε} : errors error other → states there behind →
    EndsAlike states errors (.error error, there) (.error other, behind)

/-- From related states a step ends alike. -/
def RunsAlike (states : σ → σ → Prop) (errors : ε → ε → Prop) (step : Step ε σ α) : Prop :=
  ∀ here other, states here other → EndsAlike states errors (step here) (step other)

theorem runsAlike_pure (answer : α) : RunsAlike states errors (pure answer : Step ε σ α) :=
  fun _ _ ↦ .ok answer

/-- Two runs that end alike end so with the same step behind them. -/
theorem EndsAlike.bind {step : Step ε σ α} {next : α → Step ε σ β} {here other : σ}
    (h : EndsAlike states errors (step here) (step other))
    (hnext : ∀ answer, RunsAlike states errors (next answer)) :
    EndsAlike states errors ((step >>= next) here) ((step >>= next) other) := by
  rw [bind_apply, bind_apply]
  generalize step here = first, step other = second at h
  cases h with
  | ok answer hstates => exact hnext answer _ _ hstates
  | error herrors hstates => exact .error herrors hstates

/-- Steps that run alike do so one after the other. -/
theorem RunsAlike.bind {step : Step ε σ α} {next : α → Step ε σ β}
    (h : RunsAlike states errors step) (hnext : ∀ answer, RunsAlike states errors (next answer)) :
    RunsAlike states errors (step >>= next) := fun here other hstates ↦
  (h here other hstates).bind hnext

/-- Assumes: what is done when told either of two related states ends alike from them. A step that
is told its state runs alike. -/
theorem runsAlike_state_bind {next : σ → Step ε σ β}
    (hnext : ∀ here other, states here other →
      EndsAlike states errors (next here here) (next other other)) :
    RunsAlike states errors (state >>= next) := hnext

/-- Assumes: related states have as much remaining, and the same sign of more. Repetition of a step
that runs alike runs alike, since both runs stop repeating together. -/
theorem RunsAlike.repeated {remaining : σ → Nat} {more : σ → Bool} {step : Step ε σ α}
    (h : RunsAlike states errors step)
    (hremaining : ∀ {here other}, states here other → remaining other = remaining here)
    (hmore : ∀ {here other}, states here other → more other = more here) :
    RunsAlike states errors (whileMore remaining more step) := by
  intro here other hstates
  induction hlength : remaining here using Nat.strongRecOn generalizing here other with
  | ind length ih =>
    unfold whileMore
    rw [hmore hstates]
    split
    · have hstep := h here other hstates
      generalize step here = first, step other = second at hstep
      cases hstep with
      | error herrors hthere => exact .error herrors hthere
      | @ok there behind answer hthere =>
        simp only [hremaining hthere, hremaining hstates]
        split
        · rename_i hless
          have hothers := ih _ (hlength ▸ hless) there behind hthere rfl
          generalize whileMore remaining more step there = first,
            whileMore remaining more step behind = second at hothers
          cases hothers with
          | ok answers hstop => exact .ok (answer :: answers) hstop
          | error herrors hstop => exact .error herrors hstop
        · exact .ok [answer] hthere
    · exact .ok [] hstates

end Step

/-! ### Errors -/

namespace GrammarError

/-- An error without the text of the token that it has found. -/
def withoutFound : GrammarError → GrammarError
  | .unexpected expected _ span => .unexpected expected "" span
  | .paramAfterResult span => .paramAfterResult span

/-- Whether none of some names mentions the older spelling. -/
def AvoidOlder (names : List String) : Prop := ∀ name ∈ names, ¬ anyfunc.toList <:+: name.toList

instance (names : List String) : Decidable (AvoidOlder names) :=
  inferInstanceAs (Decidable (∀ name ∈ names, ¬ anyfunc.toList <:+: name.toList))

/-- Two errors differ in the texts that they have found only, and list no alternative that mentions
the older spelling. -/
structure Resembles (error other : GrammarError) : Prop where
  /-- The errors differ in what they have found. -/
  withoutFound_eq : other.withoutFound = error.withoutFound
  /-- The alternatives do without the older spelling. -/
  avoidOlder : AvoidOlder error.alternatives

end GrammarError

/-- In places that differ in spellings the same alternatives are missed at the same place. -/
theorem Cursor.Respells.unexpected {here other : Cursor} (h : Respells here other)
    {expected : List String} (hexpected : GrammarError.AvoidOlder expected) :
    (here.unexpected expected).Resembles (other.unexpected expected) :=
  ⟨by simp [Cursor.unexpected, GrammarError.withoutFound, h.span_eq], hexpected⟩

/-- An element is neither of the two words, and its name does not mention the older one. -/
def Element.IsNeutral (element : Element) : Prop :=
  element ∉ funcrefWords.map .keyword ∧ GrammarError.AvoidOlder [element.display]

instance (element : Element) : Decidable element.IsNeutral :=
  inferInstanceAs (Decidable (_ ∧ GrammarError.AvoidOlder [element.display]))

/-! ### Rules -/

open Step

namespace Rule

open GrammarError (AvoidOlder)

variable {α β : Type}

/-- A rule of a cursor ends alike in places that differ in spellings. -/
abbrev IgnoresSpelling (rule : Rule Cursor α) : Prop :=
  RunsAlike Cursor.Respells GrammarError.Resembles rule

/-- Assumes: a meaning that makes no difference between the two words. The rule of a token with this
meaning ignores the spelling. -/
theorem ignoresSpelling_token {expected : List String} {meaning : Token → Option α}
    (hwords : ∀ span, meaning ⟨.keyword anyfunc, span⟩ =
      meaning ⟨.keyword ValType.funcref.keyword, span⟩) (hexpected : AvoidOlder expected) :
    IgnoresSpelling (token expected meaning) := by
  intro here other h
  have hmeaning : meaning other.current = meaning here.current := (h.tokenAt 0).apply_eq _ hwords
  cases hhere : meaning here.current with
  | some answer =>
    rw [token_of_some hhere, token_of_some (hmeaning.trans hhere)]
    exact .ok answer h.advance
  | none =>
    rw [token_of_none hhere, token_of_none (hmeaning.trans hhere)]
    exact .error (h.unexpected hexpected) h

theorem ignoresSpelling_expecting {expected : List String} (hexpected : AvoidOlder expected) :
    IgnoresSpelling (expecting expected : Rule Cursor α) := fun _ _ h ↦
  .error (h.unexpected hexpected) h

theorem ignoresSpelling_keyword {word : String} (h : (Element.keyword word).IsNeutral) :
    IgnoresSpelling (keyword word) :=
  ignoresSpelling_token
    (Token.keyword?_funcrefWords fun hword ↦ h.1 (List.mem_map_of_mem hword)) h.2

theorem ignoresSpelling_opening : IgnoresSpelling opening :=
  ignoresSpelling_token (fun _ ↦ rfl) (by decide)

theorem ignoresSpelling_closing : IgnoresSpelling closing :=
  ignoresSpelling_token (fun _ ↦ rfl) (by decide)

theorem IgnoresSpelling.parens {body : Rule Cursor α} (hbody : IgnoresSpelling body) :
    IgnoresSpelling (Rule.parens body) :=
  ignoresSpelling_opening.bind fun _ ↦ hbody.bind fun _ ↦ ignoresSpelling_closing.bind fun _ ↦
    runsAlike_pure _

theorem IgnoresSpelling.untilGroupEnd {rule : Rule Cursor α} (hrule : IgnoresSpelling rule) :
    IgnoresSpelling (Rule.untilGroupEnd rule) :=
  hrule.repeated (fun h ↦ h.length_ahead_eq) fun h ↦ by rw [h.isGroupEnd_eq]

theorem ignoresSpelling_string : IgnoresSpelling string :=
  ignoresSpelling_token (fun _ ↦ rfl) (by decide)

theorem ignoresSpelling_displayName : IgnoresSpelling displayName := by
  apply runsAlike_state_bind
  intro here other h
  rw [h.shows_eq (by decide) 0, h.span_eq]
  split
  · have hskipped : IgnoresSpelling (skip >>= fun _ ↦ string) :=
      fun _ _ h ↦ ignoresSpelling_string _ _ h.advance
    exact (hskipped.parens.bind fun _ ↦ runsAlike_pure _) here other h
  · exact ignoresSpelling_expecting (by decide) here other h

end Rule

namespace Element

open Rule

/-- Reading an element that is neither of the two words ignores their spelling. -/
theorem ignoresSpelling_read {element : Element} (h : element.IsNeutral) :
    IgnoresSpelling element.read := by
  cases element with
  | keyword word => exact ignoresSpelling_keyword h
  | displayName => exact ignoresSpelling_displayName
  | _ => exact ignoresSpelling_token (fun _ ↦ rfl) (by decide)

/-- Reading an element that may be missing and is neither of the two words ignores their
spelling. -/
theorem ignoresSpelling_readOptional (element : Element) (helement : element.IsNeutral) :
    IgnoresSpelling element.readOptional := by
  apply runsAlike_state_bind
  intro here other h
  rw [h.shows_eq helement.1 0]
  split
  · exact ((ignoresSpelling_read helement).bind fun _ ↦ runsAlike_pure _) here other h
  · exact runsAlike_pure _ here other h

end Element

namespace Grammar

open Rule

variable {α : Type}

theorem ignoresSpelling_valType : IgnoresSpelling Grammar.valType :=
  ignoresSpelling_token (fun _ ↦ rfl) (by decide)

theorem ignoresSpelling_elemType : IgnoresSpelling Grammar.elemType :=
  ignoresSpelling_token (fun _ ↦ rfl) (by decide)

theorem ignoresSpelling_limits : IgnoresSpelling Grammar.limits :=
  RunsAlike.bind (ignoresSpelling_token (fun _ ↦ rfl) (by decide)) fun _ ↦
    (Element.ignoresSpelling_readOptional .unsigned (by decide)).bind fun _ ↦ runsAlike_pure _

theorem ignoresSpelling_globalType : IgnoresSpelling Grammar.globalType := by
  apply runsAlike_state_bind
  intro here other h
  rw [h.opensWith_eq (by decide)]
  split
  · have hmutable : IgnoresSpelling (keyword "mut" >>= fun _ ↦ valType >>= fun ty ↦
        pure (⟨ty, true⟩ : GlobalType)) :=
      (ignoresSpelling_keyword (by decide)).bind fun _ ↦
        ignoresSpelling_valType.bind fun _ ↦ runsAlike_pure _
    exact hmutable.parens here other h
  · exact (ignoresSpelling_valType.bind fun _ ↦ runsAlike_pure _) here other h

theorem ignoresSpelling_tableType : IgnoresSpelling Grammar.tableType :=
  ignoresSpelling_limits.bind fun _ ↦ ignoresSpelling_elemType.bind fun _ ↦ runsAlike_pure _

theorem ignoresSpelling_memoryType : IgnoresSpelling Grammar.memoryType :=
  ignoresSpelling_limits.bind fun _ ↦
    (Element.ignoresSpelling_readOptional (.keyword "shared") (by decide)).bind fun _ ↦
      runsAlike_pure _

/-! ### Signatures -/

/-- The same has been gathered, in places that differ in spellings. -/
def GatheredAlike (here other : SignatureBuilder × Cursor) : Prop :=
  here.1 = other.1 ∧ here.2.Respells other.2

/-- A rule that reads into a builder ends alike in places that differ in spellings. -/
abbrev GathersAlike (rule : SignatureRule α) : Prop :=
  RunsAlike GatheredAlike GrammarError.Resembles rule

theorem gathersAlike_onCursor {rule : Rule Cursor α} (hrule : IgnoresSpelling rule) :
    GathersAlike (onCursor rule) := by
  rintro ⟨builder, here⟩ ⟨_, other⟩ ⟨rfl, h⟩
  have hrun := hrule here other h
  simp only [onCursor]
  generalize rule here = first, rule other = second at hrun
  cases hrun with
  | ok answer hthere => exact .ok answer ⟨rfl, hthere⟩
  | error herrors hthere => exact .error herrors ⟨rfl, hthere⟩

theorem gathersAlike_gather (change : SignatureBuilder → SignatureBuilder) :
    GathersAlike (gather change) := by
  rintro ⟨builder, here⟩ ⟨_, other⟩ ⟨rfl, h⟩
  exact .ok () ⟨rfl, h⟩

theorem GathersAlike.repeated {more : Cursor → Bool} {rule : SignatureRule Unit}
    (hrule : GathersAlike rule)
    (hmore : ∀ {here other : Cursor}, here.Respells other → more other = more here) :
    GathersAlike (gatherWhile more rule) :=
  (RunsAlike.repeated hrule (fun h ↦ h.2.length_ahead_eq) fun h ↦ hmore h.2).bind fun _ ↦
    runsAlike_pure _

theorem gathersAlike_gatherTypes (add : ValType → SignatureBuilder → SignatureBuilder) :
    GathersAlike (gatherWhile (fun there ↦ !there.isGroupEnd)
      (onCursor valType >>= fun ty ↦ gather (add ty))) :=
  GathersAlike.repeated
    ((gathersAlike_onCursor ignoresSpelling_valType).bind fun ty ↦ gathersAlike_gather (add ty))
    fun h ↦ by rw [h.isGroupEnd_eq]

theorem gathersAlike_typesBehind (id : Option Id) (name : Option DisplayName) :
    GathersAlike (typesBehind id name) := by
  unfold typesBehind
  split
  · exact (gathersAlike_onCursor ignoresSpelling_valType).bind fun _ ↦ gathersAlike_gather _
  · exact gathersAlike_gatherTypes fun ty ↦ .addParam (.anonymous ty)

theorem gathersAlike_params : GathersAlike Grammar.params := by
  rintro ⟨builder, here⟩ ⟨_, other⟩ ⟨rfl, h⟩
  cases hend : here.isGroupEnd with
  | true =>
    rw [params_of_isGroupEnd hend, params_of_isGroupEnd (h.isGroupEnd_eq.trans hend)]
    exact .ok () ⟨rfl, h⟩
  | false =>
    have hother := h.isGroupEnd_eq.trans hend
    cases hallows : builder.allowsNames with
    | false =>
      rw [params_of_not_allowsNames hend hallows, params_of_not_allowsNames hother hallows]
      exact gathersAlike_typesBehind none none _ _ ⟨rfl, h⟩
    | true =>
      rw [params_of_allowsNames hend hallows, params_of_allowsNames hother hallows]
      have hid := Element.ignoresSpelling_readOptional .id (by decide)
      have hname := Element.ignoresSpelling_readOptional .displayName (by decide)
      have hnamed := (gathersAlike_onCursor hid).bind fun id ↦
        (gathersAlike_onCursor hname).bind fun name ↦ gathersAlike_typesBehind id name
      exact hnamed _ _ ⟨rfl, h⟩

theorem gathersAlike_insideGroup : GathersAlike insideGroup := by
  rintro ⟨builder, here⟩ ⟨_, other⟩ ⟨rfl, h⟩
  simp only [insideGroup]
  rw [h.shows_eq (by decide) 0]
  split
  · split
    · have hparams : GathersAlike (onCursor (keyword "param") >>= fun _ ↦ Grammar.params) :=
        (gathersAlike_onCursor (ignoresSpelling_keyword (by decide))).bind fun _ ↦
          gathersAlike_params
      exact hparams _ _ ⟨rfl, h⟩
    · rw [h.span_eq]
      exact .error ⟨rfl, by simp [GrammarError.AvoidOlder, GrammarError.alternatives]⟩ ⟨rfl, h⟩
  · have hresults : GathersAlike (onCursor (keyword "result") >>= fun _ ↦ Grammar.results) :=
      (gathersAlike_onCursor (ignoresSpelling_keyword (by decide))).bind fun _ ↦
        gathersAlike_gatherTypes .addResult
    exact hresults _ _ ⟨rfl, h⟩

theorem gathersAlike_signatureGroups : GathersAlike signatureGroups := by
  have hgroup : GathersAlike signatureGroup := by
    rw [signatureGroup_eq]
    exact (gathersAlike_onCursor ignoresSpelling_opening).bind fun _ ↦
      gathersAlike_insideGroup.bind fun _ ↦ gathersAlike_onCursor ignoresSpelling_closing
  exact hgroup.repeated fun h ↦ h.opensSignatureGroup_eq

theorem ignoresSpelling_signature (allowsNames : Bool) :
    IgnoresSpelling (Grammar.signature allowsNames) := by
  intro here other h
  have hrun := gathersAlike_signatureGroups (.empty allowsNames, here) (.empty allowsNames, other)
    ⟨rfl, h⟩
  simp only [Grammar.signature]
  generalize signatureGroups (.empty allowsNames, here) = first,
    signatureGroups (.empty allowsNames, other) = second at hrun
  cases hrun with
  | error herrors hthere => exact .error herrors hthere.2
  | @ok there behind _ hthere =>
    obtain ⟨gathered, there⟩ := there
    obtain ⟨_, behind⟩ := behind
    obtain ⟨rfl, hthere⟩ := hthere
    exact .ok gathered.finish hthere

theorem ignoresSpelling_functionType : IgnoresSpelling Grammar.functionType :=
  (ignoresSpelling_keyword (by decide)).bind fun _ ↦ ignoresSpelling_signature true

theorem ignoresSpelling_typeUse (allowsNames : Bool) :
    IgnoresSpelling (Grammar.typeUse allowsNames) := by
  intro here other h
  have hsignature (index : Option Index) :=
    (ignoresSpelling_signature allowsNames).bind fun func ↦ runsAlike_pure (⟨index, func⟩ : TypeUse)
  have hopensOther : other.opensWith (.keyword "type") = here.opensWith (.keyword "type") :=
    h.opensWith_eq (by decide)
  cases hopens : here.opensWith (.keyword "type") with
  | true =>
    rw [typeUse_of_opensWith hopens, typeUse_of_opensWith (hopensOther.trans hopens)]
    have hindex : IgnoresSpelling Rule.index := ignoresSpelling_token (fun _ ↦ rfl) (by decide)
    have hreference : IgnoresSpelling typeReference := IgnoresSpelling.parens <|
      (ignoresSpelling_keyword (by decide)).bind fun _ ↦ hindex.bind fun _ ↦
        runsAlike_pure _
    exact (hreference.bind hsignature) here other h
  | false =>
    rw [typeUse_of_not_opensWith hopens, typeUse_of_not_opensWith (hopensOther.trans hopens)]
    exact hsignature none here other h

/-! ### Modules -/

theorem FieldKind.ignoresSpelling_rule (kind : FieldKind) : IgnoresSpelling kind.rule := by
  cases kind with
  | type =>
    exact ignoresSpelling_functionType.parens.bind fun _ ↦ runsAlike_pure _
  | global => exact ignoresSpelling_globalType.bind fun _ ↦ runsAlike_pure _
  | table => exact ignoresSpelling_tableType.bind fun _ ↦ runsAlike_pure _
  | memory => exact ignoresSpelling_memoryType.bind fun _ ↦ runsAlike_pure _
  | func => exact (ignoresSpelling_typeUse true).bind fun _ ↦ runsAlike_pure _

theorem ignoresSpelling_fieldOf (kind : FieldKind) :
    IgnoresSpelling (Grammar.fieldOf kind.word kind.rule) := by
  have hword : IgnoresSpelling (keyword kind.word) := by
    cases kind <;> exact ignoresSpelling_keyword (by decide)
  exact hword.bind fun _ ↦ (Element.ignoresSpelling_readOptional .id (by decide)).bind
    fun _ ↦ kind.ignoresSpelling_rule.bind fun _ ↦ runsAlike_pure _

theorem ignoresSpelling_field : IgnoresSpelling Grammar.field := by
  intro here other h
  have hshows (kind : FieldKind) :
      other.shows 0 (.keyword kind.word) = here.shows 0 (.keyword kind.word) :=
    h.shows_eq (by cases kind <;> decide) 0
  by_cases hkind : ∃ kind : FieldKind, here.shows 0 (.keyword kind.word) = true
  · obtain ⟨kind, hhere⟩ := hkind
    rw [field_eq_of_shows hhere, field_eq_of_shows ((hshows kind).trans hhere)]
    exact ignoresSpelling_fieldOf kind here other h
  · simp only [not_exists, Bool.not_eq_true] at hkind
    rw [field_eq_expecting hkind, field_eq_expecting fun kind ↦ (hshows kind).trans (hkind kind)]
    exact .error (h.unexpected (by decide)) h

theorem ignoresSpelling_fields : IgnoresSpelling Grammar.fields :=
  ignoresSpelling_field.parens.untilGroupEnd

theorem ignoresSpelling_moduleParts : IgnoresSpelling moduleParts := by
  intro here other h
  simp only [moduleParts]
  rw [h.opensWith_eq (by decide)]
  split
  · have hwrapped : IgnoresSpelling wrappedModule :=
      (ignoresSpelling_keyword (by decide)).bind fun _ ↦
        (Element.ignoresSpelling_readOptional .id (by decide)).bind fun _ ↦
          ignoresSpelling_fields.bind fun _ ↦ runsAlike_pure _
    exact hwrapped.parens here other h
  · exact (ignoresSpelling_fields.bind fun _ ↦ runsAlike_pure _) here other h

theorem ignoresSpelling_module : IgnoresSpelling Grammar.module := by
  intro here other h
  have hparts := ignoresSpelling_moduleParts here other h
  rw [module_apply, module_apply, h.span_eq]
  generalize moduleParts here = first, moduleParts other = second at hparts
  cases hparts with
  | error herrors hthere => exact .error herrors hthere
  | ok parts hthere =>
    simp only [hthere.isAtEnd_eq, hthere.span_eq]
    split
    · exact .ok _ hthere
    · exact .error (hthere.unexpected (by decide)) hthere

/-- Every rule of the grammar ends alike in places that differ in spellings. -/
theorem ignoresSpelling_rule (production : Production) : IgnoresSpelling production.rule := by
  cases production with
  | valType => exact ignoresSpelling_valType
  | elemType => exact ignoresSpelling_elemType
  | limits => exact ignoresSpelling_limits
  | globalType => exact ignoresSpelling_globalType
  | tableType => exact ignoresSpelling_tableType
  | memoryType => exact ignoresSpelling_memoryType
  | signature allowsNames => exact ignoresSpelling_signature allowsNames
  | functionType => exact ignoresSpelling_functionType
  | typeField => exact ignoresSpelling_fieldOf .type
  | typeUse allowsNames => exact ignoresSpelling_typeUse allowsNames
  | field => exact ignoresSpelling_field
  | module => exact ignoresSpelling_module

end Grammar

/-! ### Respelled tokens -/

/-- The places before tokens differ in spellings from those before the same tokens respelled. -/
theorem respells_start_respelledAt (tokens : TokenList) (chosen : Nat → Bool) :
    (Cursor.start tokens).Respells (.start (tokens.respelledAt chosen)) := by
  refine ⟨?_, rfl, rfl⟩
  obtain ⟨body, stop⟩ := tokens
  change List.Forall₂ Token.Respells body (body.mapIdx _)
  induction body generalizing chosen with
  | nil => exact .nil
  | cons token rest ih =>
    rw [List.mapIdx_cons]
    refine .cons ?_ (ih fun position ↦ chosen (position + 1))
    split
    · exact token.respells_respelled
    · exact .same token

/-- The older word for function references is the newer one. Tokens in which the two words are
exchanged at any positions are read alike: as the same module, which is written as the same text, or
with errors at the same token that differ only in what they have found. And wherever a rule of the
grammar fails, no alternative that its error lists mentions the older word. -/
theorem ofTokens_respelledAt (tokens : TokenList) (chosen : Nat → Bool) :
    ((∃ found, TypeModule.ofTokens tokens = .ok found ∧
        TypeModule.ofTokens (tokens.respelledAt chosen) = .ok found) ∨
      ∃ error other, TypeModule.ofTokens tokens = .error error ∧
        TypeModule.ofTokens (tokens.respelledAt chosen) = .error other ∧
        other.withoutFound = error.withoutFound ∧
        (Grammar.module (.start (tokens.respelledAt chosen))).2.position =
          (Grammar.module (.start tokens)).2.position) ∧
    (∀ indent, (TypeModule.ofTokens (tokens.respelledAt chosen)).toOption.map
        (·.canonicalText indent) =
      (TypeModule.ofTokens tokens).toOption.map (·.canonicalText indent)) ∧
    ∀ (production : Production) here error there, production.rule here = (.error error, there) →
      GrammarError.AvoidOlder error.alternatives := by
  have houtcome : (∃ found, TypeModule.ofTokens tokens = .ok found ∧
        TypeModule.ofTokens (tokens.respelledAt chosen) = .ok found) ∨
      ∃ error other, TypeModule.ofTokens tokens = .error error ∧
        TypeModule.ofTokens (tokens.respelledAt chosen) = .error other ∧
        other.withoutFound = error.withoutFound ∧
        (Grammar.module (.start (tokens.respelledAt chosen))).2.position =
          (Grammar.module (.start tokens)).2.position := by
    have hmodule := Grammar.ignoresSpelling_module _ _ (respells_start_respelledAt tokens chosen)
    simp only [TypeModule.ofTokens]
    generalize Grammar.module (.start tokens) = first,
      Grammar.module (.start (tokens.respelledAt chosen)) = second at hmodule
    cases hmodule with
    | ok found _ => exact .inl ⟨found, rfl, rfl⟩
    | error herrors hthere =>
      exact .inr ⟨_, _, rfl, rfl, herrors.withoutFound_eq, hthere.position_eq⟩
  refine ⟨houtcome, fun indent ↦ ?_, fun production here error there hrun ↦ ?_⟩
  · rcases houtcome with ⟨found, hfound, hother⟩ | ⟨error, other, herror, hother, -⟩
    · rw [hfound, hother]
    · rw [herror, hother]
      rfl
  · have hrule := Grammar.ignoresSpelling_rule production here here (.refl here)
    rw [hrun] at hrule
    cases hrule with
    | error herrors _ => exact herrors.avoidOlder

end WatTypes
