import WatTypes.Cursor.Script
import WatTypes.Proofs.Lookahead

/-!
# The cursor keeps to its tokens

Whatever is done with a cursor, it never goes back and never gets behind the end of the input, and
an error is about the token that the cursor stands at when the error arises. A step goes forward
(`Step.GoesForwardAt`) if this holds of it from where it starts. Steps that go forward do so one
after another, in parentheses and repeated, hence so does every rule of the grammar
(`isForward_rule`) and every operation (`isForward_perform`).

What is done with a cursor need not be a fixed sequence: operations can be chosen by the answers and
the errors of those before them, inside of parentheses as well, and use any builders
(`Conduct`). In a run of a script each operation starts where the one before it stopped, also
after an error (`Script.run`). Both keep to the tokens, seen by their indices
(`keeps_to_tokens`).
-/

set_option autoImplicit false
set_option relaxedAutoImplicit false

namespace WatTypes

/-! ### Places and errors -/

/-- An error is about a token: it points at it, and what it has found is the token. -/
def GrammarError.IsAbout (token : Token) : GrammarError → Prop
  | .unexpected _ found span => found = token.lexeme.describe ∧ span = token.span
  | .paramAfterResult span => span = token.span

/-- An error of the grammar is about a token. Looking for a token where there is none is another
error. -/
def OperationError.IsAbout (token : Token) : OperationError → Prop
  | .grammar error => error.IsAbout token
  | .noToken => True

namespace Cursor

/-- A cursor gets from one place to another by passing tokens. -/
def Reaches (here there : Cursor) : Prop := ∃ taken, Passes taken here there

theorem Reaches.refl (here : Cursor) : Reaches here here := ⟨[], .refl here⟩

theorem Reaches.trans {here middle there : Cursor} (hfirst : Reaches here middle)
    (hsecond : Reaches middle there) : Reaches here there := by
  obtain ⟨first, hfirst⟩ := hfirst
  obtain ⟨second, hsecond⟩ := hsecond
  exact ⟨first ++ second, hfirst.trans hsecond⟩

/-- A cursor advances by passing a token, or stays at the end of the input. -/
theorem reaches_advance (here : Cursor) : here.Reaches here.advance := by
  obtain ⟨behind, ahead, stop⟩ := here
  cases ahead with
  | nil => exact .refl _
  | cons token rest => exact ⟨[token], rfl, rfl, rfl⟩

/-- The error that something else was expected is about the token that comes next. -/
theorem isAbout_unexpected (here : Cursor) (expected : List String) :
    (here.unexpected expected).IsAbout here.current := ⟨rfl, rfl⟩

end Cursor

/-! ### Steps that go forward -/

namespace Step

variable {ε δ σ α β : Type} {place : σ → Cursor} {about : Token → ε → Prop} {here there : σ}

/-- A step that started in a state has gone forward: its place is reached from the one where it
started, and an error is about the token there. -/
structure EndsForward (place : σ → Cursor) (about : Token → ε → Prop) (here : σ)
    (result : Except ε α × σ) : Prop where
  /-- The place is reached. -/
  reaches : (place here).Reaches (place result.2)
  /-- An error is about the next token. -/
  about_current : ∀ error, result.1 = .error error → about (place result.2).current error

/-- A step goes forward from every state. -/
def GoesForward (place : σ → Cursor) (about : Token → ε → Prop) (step : Step ε σ α) : Prop :=
  ∀ here, EndsForward place about here (step here)

theorem EndsForward.ok (hreaches : (place here).Reaches (place there)) (answer : α) :
    EndsForward place about here (.ok answer, there) :=
  ⟨hreaches, fun _ herror ↦ nomatch herror⟩

theorem EndsForward.error {error : ε} (hreaches : (place here).Reaches (place there))
    (habout : about (place there).current error) :
    EndsForward place about here ((.error error : Except ε α), there) :=
  ⟨hreaches, fun _ herror ↦ Except.error.inj herror ▸ habout⟩

/-- What goes forward from a place that is reached goes forward from the one before it. -/
theorem EndsForward.trans {middle : σ} {result : Except ε α × σ}
    (hreaches : (place here).Reaches (place middle))
    (hresult : EndsForward place about middle result) : EndsForward place about here result :=
  ⟨hreaches.trans hresult.reaches, hresult.about_current⟩

/-- An error is the same whatever the answer would have been. -/
theorem EndsForward.recast {error : ε}
    (h : EndsForward place about here ((.error error : Except ε α), there)) :
    EndsForward place about here ((.error error : Except ε β), there) :=
  .error h.reaches (h.about_current error rfl)

/-- Answering goes forward. -/
theorem goesForward_pure (answer : α) : GoesForward place about (pure answer : Step ε σ α) :=
  fun here ↦ .ok (.refl (place here)) answer

/-- Assumes: a step goes forward from a state, and what is done with its answer goes forward from
where it stops. They go forward one after the other. -/
theorem EndsForward.bind {step : Step ε σ α} {next : α → Step ε σ β}
    (hstep : EndsForward place about here (step here))
    (hnext : ∀ answer there, step here = (.ok answer, there) →
      EndsForward place about there (next answer there)) :
    EndsForward place about here ((step >>= next) here) := by
  rw [bind_apply]
  rcases hrun : step here with ⟨outcome, there⟩
  rw [hrun] at hstep
  cases outcome with
  | error error => exact hstep.recast
  | ok answer => exact (hnext answer there hrun).trans hstep.reaches

/-- Steps that go forward do so one after the other. -/
theorem GoesForward.bind {step : Step ε σ α} {next : α → Step ε σ β}
    (hstep : GoesForward place about step)
    (hnext : ∀ answer, GoesForward place about (next answer)) :
    GoesForward place about (step >>= next) := fun here ↦
  (hstep here).bind fun answer there _ ↦ hnext answer there

/-- What goes forward from each state when it is told the state goes forward. -/
theorem goesForward_state_bind {next : σ → Step ε σ β}
    (hnext : ∀ here, EndsForward place about here (next here here)) :
    GoesForward place about (state >>= next) := hnext

/-- A step that goes forward does so with its error put in other terms. -/
theorem GoesForward.mapError {step : Step ε σ α} {change : ε → δ} {other : Token → δ → Prop}
    (hstep : GoesForward place about step)
    (hchange : ∀ token error, about token error → other token (change error)) :
    GoesForward place other (mapError change step) := by
  intro here
  have hhere := hstep here
  rw [mapError_apply]
  rcases hrun : step here with ⟨outcome, there⟩
  rw [hrun] at hhere
  cases outcome with
  | ok answer => exact .ok hhere.reaches answer
  | error error => exact .error hhere.reaches (hchange _ _ (hhere.about_current error rfl))

/-- Repetition of a step that goes forward goes forward. -/
theorem GoesForward.repeated {remaining : σ → Nat} {more : σ → Bool} {step : Step ε σ α}
    (hstep : GoesForward place about step) :
    GoesForward place about (whileMore remaining more step) := by
  intro here
  fun_induction whileMore remaining more step here with
  | case1 here _ error there hrun =>
    have hhere := hstep here
    rw [hrun] at hhere
    exact hhere.recast
  | case2 here _ answer there hrun _ answers stop hothers ih =>
    have hhere := hstep here
    rw [hrun] at hhere
    rw [hothers] at ih
    exact .ok (hhere.reaches.trans ih.reaches) (answer :: answers)
  | case3 here _ answer there hrun _ error stop hothers ih =>
    have hhere := hstep here
    rw [hrun] at hhere
    rw [hothers] at ih
    exact ih.recast.trans hhere.reaches
  | case4 here _ answer there hrun _ =>
    have hhere := hstep here
    rw [hrun] at hhere
    exact .ok hhere.reaches [answer]
  | case5 here _ => exact .ok (.refl (place here)) []

end Step

/-! ### Rules -/

open Step

namespace Rule

variable {α : Type}

/-- A rule of a cursor goes forward. -/
abbrev IsForward (rule : Rule Cursor α) : Prop := GoesForward id GrammarError.IsAbout rule

theorem isForward_token (expected : List String) (meaning : Token → Option α) :
    IsForward (token expected meaning) := by
  intro here
  cases hmeaning : meaning here.current with
  | some answer =>
    rw [token_of_some hmeaning]
    exact .ok here.reaches_advance answer
  | none =>
    rw [token_of_none hmeaning]
    exact .error (.refl here) (here.isAbout_unexpected expected)

theorem isForward_skip : IsForward skip := fun here ↦ .ok here.reaches_advance here.current

theorem isForward_expecting (expected : List String) :
    IsForward (expecting expected : Rule Cursor α) := fun here ↦
  .error (.refl here) (here.isAbout_unexpected expected)

theorem IsForward.parens {body : Rule Cursor α} (hbody : IsForward body) :
    IsForward (Rule.parens body) :=
  (isForward_token _ _).bind fun _ ↦ hbody.bind fun _ ↦
    (isForward_token _ _).bind fun _ ↦ goesForward_pure _

theorem isForward_displayName : IsForward displayName := by
  apply goesForward_state_bind
  intro here
  split
  · have hname : IsForward (Rule.parens (skip >>= fun _ ↦ string)) :=
      .parens (isForward_skip.bind fun _ ↦ isForward_token _ _)
    exact (hname.bind fun _ ↦ goesForward_pure _) here
  · exact isForward_expecting _ here

end Rule

namespace Element

open Rule

theorem isForward_read (element : Element) : IsForward element.read := by
  cases element with
  | displayName => exact isForward_displayName
  | _ => exact isForward_token _ _

theorem isForward_readOptional (element : Element) : IsForward element.readOptional := by
  apply goesForward_state_bind
  intro here
  split
  · exact (element.isForward_read.bind fun _ ↦ goesForward_pure _) here
  · exact goesForward_pure _ here

end Element

namespace Grammar

open Rule

variable {α : Type}

theorem isForward_limits : IsForward Grammar.limits :=
  (isForward_token _ _).bind fun _ ↦ (Element.isForward_readOptional .unsigned).bind fun _ ↦
    goesForward_pure _

theorem isForward_globalType : IsForward Grammar.globalType := by
  apply goesForward_state_bind
  intro here
  split
  · have hmutable : IsForward (Rule.parens (keyword "mut" >>= fun _ ↦ valType >>= fun ty ↦
        pure (⟨ty, true⟩ : GlobalType))) :=
      .parens ((isForward_token _ _).bind fun _ ↦ (isForward_token _ _).bind fun _ ↦
        goesForward_pure _)
    exact hmutable here
  · exact ((isForward_token _ _).bind fun _ ↦ goesForward_pure _) here

theorem isForward_tableType : IsForward Grammar.tableType :=
  isForward_limits.bind fun _ ↦ (isForward_token _ _).bind fun _ ↦ goesForward_pure _

theorem isForward_memoryType : IsForward Grammar.memoryType :=
  isForward_limits.bind fun _ ↦ (Element.isForward_readOptional _).bind fun _ ↦ goesForward_pure _

/-! ### Signatures -/

/-- A rule that reads into a builder goes forward. -/
abbrev IsForwardGathering (rule : SignatureRule α) : Prop :=
  GoesForward Prod.snd GrammarError.IsAbout rule

theorem isForward_onCursor {rule : Rule Cursor α} (hrule : IsForward rule) :
    IsForwardGathering (onCursor rule) := fun state ↦
  ⟨(hrule state.2).reaches, (hrule state.2).about_current⟩

theorem isForward_gather (change : SignatureBuilder → SignatureBuilder) :
    IsForwardGathering (gather change) := fun (_, here) ↦ .ok (.refl here) ()

theorem IsForwardGathering.repeated {more : Cursor → Bool} {rule : SignatureRule Unit}
    (hrule : IsForwardGathering rule) : IsForwardGathering (gatherWhile more rule) :=
  (GoesForward.repeated hrule).bind fun _ ↦ goesForward_pure ()

theorem isForward_gatherTypes (add : ValType → SignatureBuilder → SignatureBuilder) :
    IsForwardGathering (gatherWhile (fun there ↦ !there.isGroupEnd)
      (onCursor valType >>= fun ty ↦ gather (add ty))) :=
  .repeated ((isForward_onCursor (isForward_token _ _)).bind fun ty ↦ isForward_gather (add ty))

theorem isForward_typesBehind (id : Option Id) (name : Option DisplayName) :
    IsForwardGathering (typesBehind id name) := by
  unfold typesBehind
  split
  · exact (isForward_onCursor (isForward_token _ _)).bind fun _ ↦ isForward_gather _
  · exact isForward_gatherTypes fun ty ↦ .addParam (.anonymous ty)

theorem isForward_params : IsForwardGathering Grammar.params := by
  rintro ⟨builder, here⟩
  cases hend : here.isGroupEnd with
  | true =>
    rw [params_of_isGroupEnd hend]
    exact .ok (.refl here) ()
  | false =>
    cases hallows : builder.allowsNames with
    | false =>
      rw [params_of_not_allowsNames hend hallows]
      exact isForward_typesBehind none none (builder, here)
    | true =>
      rw [params_of_allowsNames hend hallows]
      have hnamed := (isForward_onCursor (Element.isForward_readOptional .id)).bind fun id ↦
        (isForward_onCursor (Element.isForward_readOptional .displayName)).bind fun name ↦
          isForward_typesBehind id name
      exact hnamed (builder, here)

theorem isForward_insideGroup : IsForwardGathering insideGroup := by
  rintro ⟨builder, here⟩
  simp only [insideGroup]
  split
  · split
    · exact ((isForward_onCursor (isForward_token _ _)).bind fun _ ↦ isForward_params) _
    · exact .error (.refl here) rfl
  · have hresults : IsForwardGathering Grammar.results := isForward_gatherTypes .addResult
    exact ((isForward_onCursor (isForward_token _ _)).bind fun _ ↦ hresults) _

theorem isForward_signatureGroups : IsForwardGathering signatureGroups := by
  have hgroup : IsForwardGathering signatureGroup := by
    rw [signatureGroup_eq]
    exact (isForward_onCursor (isForward_token _ _)).bind fun _ ↦
      isForward_insideGroup.bind fun _ ↦ isForward_onCursor (isForward_token _ _)
  exact hgroup.repeated

theorem isForward_signature (allowsNames : Bool) : IsForward (Grammar.signature allowsNames) := by
  intro here
  have hgroups := isForward_signatureGroups (.empty allowsNames, here)
  unfold Grammar.signature
  rcases hrun : signatureGroups (.empty allowsNames, here) with ⟨outcome, gathered, there⟩
  rw [hrun] at hgroups
  cases outcome with
  | ok answer => exact ⟨hgroups.reaches, fun _ herror ↦ nomatch herror⟩
  | error error => exact .error hgroups.reaches (hgroups.about_current error rfl)

theorem isForward_functionType : IsForward Grammar.functionType :=
  (isForward_token _ _).bind fun _ ↦ isForward_signature true

theorem isForward_typeUse (allowsNames : Bool) : IsForward (Grammar.typeUse allowsNames) := by
  intro here
  have hsignature (index : Option Index) :=
    (isForward_signature allowsNames).bind fun func ↦ goesForward_pure (⟨index, func⟩ : TypeUse)
  cases hopens : here.opensWith (.keyword "type") with
  | true =>
    rw [typeUse_of_opensWith hopens]
    have hreference : IsForward typeReference :=
      .parens ((isForward_token _ _).bind fun _ ↦ (isForward_token _ _).bind fun _ ↦
        goesForward_pure _)
    exact (hreference.bind hsignature) here
  | false =>
    rw [typeUse_of_not_opensWith hopens]
    exact hsignature none here

/-! ### Modules -/

theorem isForward_fieldOf (word : String) {declaration : Rule Cursor Declaration}
    (hdeclaration : IsForward declaration) : IsForward (Grammar.fieldOf word declaration) :=
  (isForward_token _ _).bind fun _ ↦ (Element.isForward_readOptional .id).bind fun _ ↦
    hdeclaration.bind fun _ ↦ goesForward_pure _

theorem isForward_typeField : IsForward Grammar.typeField :=
  isForward_fieldOf "type" (isForward_functionType.parens.bind fun _ ↦ goesForward_pure _)

theorem isForward_field : IsForward Grammar.field := by
  apply goesForward_state_bind
  intro here
  split
  · exact isForward_typeField here
  split
  · exact isForward_fieldOf "global" (isForward_globalType.bind fun _ ↦ goesForward_pure _) here
  split
  · exact isForward_fieldOf "table" (isForward_tableType.bind fun _ ↦ goesForward_pure _) here
  split
  · exact isForward_fieldOf "memory" (isForward_memoryType.bind fun _ ↦ goesForward_pure _) here
  split
  · exact isForward_fieldOf "func" ((isForward_typeUse true).bind fun _ ↦ goesForward_pure _) here
  · exact isForward_expecting _ here

theorem isForward_fields : IsForward Grammar.fields := isForward_field.parens.repeated

theorem isForward_moduleParts : IsForward moduleParts := by
  intro here
  unfold moduleParts
  split
  · have hwrapped : IsForward wrappedModule :=
      (isForward_token _ _).bind fun _ ↦ (Element.isForward_readOptional .id).bind fun _ ↦
        isForward_fields.bind fun _ ↦ goesForward_pure _
    exact hwrapped.parens here
  · exact (isForward_fields.bind fun _ ↦ goesForward_pure _) here

theorem isForward_module : IsForward Grammar.module := by
  intro here
  rw [module_apply]
  have hparts := isForward_moduleParts here
  rcases hrun : moduleParts here with ⟨outcome, there⟩
  rw [hrun] at hparts
  cases outcome with
  | error error => exact hparts.recast
  | ok parts =>
    simp only
    split
    · exact .ok hparts.reaches _
    · exact .error hparts.reaches (there.isAbout_unexpected _)

/-- Every rule of the grammar goes forward. -/
theorem isForward_rule (production : Production) : IsForward production.rule := by
  cases production with
  | valType => exact isForward_token _ _
  | elemType => exact isForward_token _ _
  | limits => exact isForward_limits
  | globalType => exact isForward_globalType
  | tableType => exact isForward_tableType
  | memoryType => exact isForward_memoryType
  | signature allowsNames => exact isForward_signature allowsNames
  | functionType => exact isForward_functionType
  | typeField => exact isForward_typeField
  | typeUse allowsNames => exact isForward_typeUse allowsNames
  | field => exact isForward_field
  | module => exact isForward_module

end Grammar

/-! ### Operations -/

/-- A step of a script goes forward. -/
abbrev ScriptStep.IsForward {α : Type} (step : ScriptStep α) : Prop :=
  GoesForward Prod.snd OperationError.IsAbout step

namespace Operation

open Grammar

variable {α : Type}

/-- Whether an operation only asks the cursor something. -/
def isQuestion : Operation → Bool
  | .shows _ _ | .opensWith _ | .showsValType | .showsElemType | .opensSignatureGroup | .isAtEnd
  | .isGroupEnd | .currentSpan | .tokenAt _ | .choose _ => true
  | .advance | .read _ | .readOptional _ | .rule _ | .renewBuilder _ | .signatureGroups => false

theorem isForward_ask (question : Cursor → Answer) : (ask question).IsForward :=
  goesForward_state_bind fun (_, here) ↦ .ok (.refl here) (question here)

theorem isForward_askToken (offset : Int) : (askToken offset).IsForward := by
  apply goesForward_state_bind
  rintro ⟨builder, here⟩
  simp only
  cases here.tokenAtOffset? offset with
  | some token => exact goesForward_pure (Answer.token token) (builder, here)
  | none => exact .error (.refl here) trivial

theorem isForward_reading {rule : Rule Cursor α} (hrule : rule.IsForward) :
    (reading rule).IsForward :=
  (isForward_onCursor hrule).mapError fun _ _ habout ↦ habout

theorem isForward_choice (elements : List Element) : (choice elements).IsForward := by
  intro here
  unfold choice
  cases elements.find? (here.shows 0) with
  | some element => exact .ok (.refl here) element.display
  | none => exact .error (.refl here) (here.isAbout_unexpected _)

/-- Every operation goes forward. -/
theorem isForward_perform (operation : Operation) : operation.perform.IsForward := by
  have hchange (token : Token) (error : GrammarError) (habout : error.IsAbout token) :
      (OperationError.grammar error).IsAbout token := habout
  cases operation with
  | shows | opensWith | showsValType | showsElemType | opensSignatureGroup | isAtEnd | isGroupEnd
  | currentSpan =>
    rw [perform]
    exact isForward_ask _
  | tokenAt offset => exact isForward_askToken offset
  | choose elements =>
    exact (isForward_reading (isForward_choice elements)).bind fun _ ↦ goesForward_pure _
  | advance => exact (isForward_reading Rule.isForward_skip).bind fun _ ↦ goesForward_pure _
  | read element =>
    exact (isForward_reading element.isForward_read).bind fun _ ↦ goesForward_pure _
  | readOptional element =>
    refine (isForward_reading element.isForward_readOptional).bind fun value ↦ ?_
    cases value <;> exact goesForward_pure _
  | rule production =>
    exact (isForward_reading (isForward_rule production)).bind fun _ ↦ goesForward_pure _
  | renewBuilder allowsNames =>
    exact ((isForward_gather _).mapError hchange).bind fun _ ↦ goesForward_pure _
  | signatureGroups =>
    exact (isForward_signatureGroups.mapError hchange).bind fun _ ↦
      goesForward_state_bind fun here ↦ goesForward_pure (Answer.gathered here.1.finish) here

/-- A question leaves the builder and the cursor as they are. -/
theorem perform_of_isQuestion {operation : Operation} (h : operation.isQuestion = true)
    (here : SignatureBuilder × Cursor) : (operation.perform here).2 = here := by
  obtain ⟨builder, here⟩ := here
  cases operation with
  | tokenAt offset =>
    simp only [perform, askToken, bind_apply, state_apply]
    cases here.tokenAtOffset? offset <;> rfl
  | choose elements =>
    simp only [perform, reading, bind_apply, mapError_apply, onCursor, choice]
    cases elements.find? (here.shows 0) <;> rfl
  | advance | read | readOptional | rule | renewBuilder | signatureGroups => cases h
  | _ => rfl

end Operation

/-! ### Whatever is done -/

/-- Runs a step inside of parentheses, which it has to read to their end. -/
def ScriptStep.enclosed {α : Type} (body : ScriptStep α) : ScriptStep α := do
  Operation.reading Rule.opening
  let answer ← body
  Operation.reading Rule.closing
  return answer

/-- Takes a step, and answers with its outcome, be it an answer or an error. -/
def ScriptStep.attempt {α : Type} (step : ScriptStep α) :
    ScriptStep (Except OperationError α) := fun here ↦
  match step here with
  | (outcome, there) => (.ok outcome, there)

/-- Looks at the builder and puts another one, or the same, in its place. -/
def ScriptStep.onBuilder {α : Type} (exchange : SignatureBuilder → α × SignatureBuilder) :
    ScriptStep α := fun (builder, here) ↦ (.ok (exchange builder).1, ((exchange builder).2, here))

/-- What can be done with a cursor: its operations, one after another as the answers of those before
call for, inside of parentheses or not, going on after an error or not, and with any builders. -/
inductive Conduct : {α : Type} → ScriptStep α → Prop
  /-- An answer is given. -/
  | answer {α : Type} (answer : α) : Conduct (pure answer : ScriptStep α)
  /-- An operation is performed. -/
  | perform (operation : Operation) : Conduct operation.perform
  /-- The builder is looked at or exchanged. -/
  | onBuilder {α : Type} (exchange : SignatureBuilder → α × SignatureBuilder) :
    Conduct (ScriptStep.onBuilder exchange)
  /-- What is done next depends on an answer. -/
  | andThen {α β : Type} {first : ScriptStep α} {next : α → ScriptStep β} :
    Conduct first → (∀ answer, Conduct (next answer)) → Conduct (first >>= next)
  /-- An error is taken as an answer. -/
  | attempt {α : Type} {step : ScriptStep α} : Conduct step → Conduct step.attempt
  /-- Something is done inside of parentheses. -/
  | enclosed {α : Type} {body : ScriptStep α} : Conduct body → Conduct body.enclosed

/-- Whatever is done goes forward. -/
theorem Conduct.isForward {α : Type} {step : ScriptStep α} (h : Conduct step) :
    step.IsForward := by
  induction h with
  | answer answer => exact goesForward_pure answer
  | perform operation => exact operation.isForward_perform
  | onBuilder exchange => exact fun (_, here) ↦ ⟨.refl here, fun _ herror ↦ nomatch herror⟩
  | andThen _ _ hfirst hnext => exact hfirst.bind hnext
  | attempt _ hstep => exact fun here ↦ ⟨(hstep here).reaches, fun _ herror ↦ nomatch herror⟩
  | enclosed _ hbody =>
    have hparenthesis {expected : List String} {meaning : Token → Option Unit} :
        (Operation.reading (Rule.token expected meaning)).IsForward :=
      Operation.isForward_reading (Rule.isForward_token _ _)
    exact hparenthesis.bind fun _ ↦ hbody.bind fun _ ↦ hparenthesis.bind fun _ ↦
      goesForward_pure _

namespace Script

/-- Operations inside of parentheses are a step inside of parentheses that answers with a group. -/
theorem inParens_eq (body : ScriptStep (List Answer)) :
    inParens body = body.enclosed >>= fun answers ↦ pure (.group answers) := by
  funext here
  simp only [inParens, ScriptStep.enclosed, bind_apply]
  rcases Operation.reading Rule.opening here with ⟨opened, inside⟩
  cases opened with
  | error error => rfl
  | ok _ =>
    simp only
    rcases body inside with ⟨outcome, behind⟩
    cases outcome with
    | error error => rfl
    | ok answers =>
      simp only
      rcases Operation.reading Rule.closing behind with ⟨closed, there⟩
      cases closed <;> rfl

/-- Operations inside of parentheses are something that is done if their answers are. -/
theorem conduct_inParens {body : ScriptStep (List Answer)} (h : Conduct body) :
    Conduct (inParens body) := by
  rw [inParens_eq]
  exact .andThen (.enclosed h) fun answers ↦ .answer (Answer.group answers)

/-- The operations of a script up to the first error are something that is done. -/
theorem conduct_answers (script : Script) : Conduct script.answers := by
  induction script with
  | done => exact .answer []
  | step operation rest ih =>
    exact .andThen (.perform operation) fun _ ↦ .andThen ih fun _ ↦ .answer _
  | parens body rest hbody ih =>
    exact .andThen (conduct_inParens hbody) fun _ ↦ .andThen ih fun _ ↦ .answer _

end Script

/-! ### Runs -/

/-- What is done with a cursor from an index of some tokens on keeps to the tokens: it stops at an
index. -/
structure KeepsTo {α : Type} (tokens : TokenList) (first : Nat)
    (result : Except OperationError α × (SignatureBuilder × Cursor)) (last : Nat) : Prop where
  /-- The cursor stands at the index. -/
  place_eq : result.2.2 = .ofIndex tokens last
  /-- It has not gone back. -/
  first_le : first ≤ last
  /-- It has not got behind the end of the input. -/
  last_le : last ≤ tokens.body.length
  /-- An error is about the token there. -/
  isAbout : ∀ error, result.1 = .error error → error.IsAbout (tokens.tokenAt last)

/-- Operations one after another keep to the tokens: each does from the index at which the one
before it stopped, with an answer or with an error. -/
inductive AllKeepTo (tokens : TokenList) :
    Nat → List (Except OperationError Answer × (SignatureBuilder × Cursor)) → Prop
  /-- No operation. -/
  | nil {first : Nat} : AllKeepTo tokens first []
  /-- An operation, and those behind it. -/
  | cons {first last : Nat} {result : Except OperationError Answer × (SignatureBuilder × Cursor)}
    {later : List (Except OperationError Answer × (SignatureBuilder × Cursor))} :
    KeepsTo tokens first result last → AllKeepTo tokens last later →
      AllKeepTo tokens first (result :: later)

section

variable {tokens : TokenList} {first : Nat}

/-- A place that is reached from an index within some tokens is at an index within them. -/
theorem Cursor.Reaches.exists_index {there : Cursor} (hfirst : first ≤ tokens.body.length)
    (h : (Cursor.ofIndex tokens first).Reaches there) :
    ∃ last, there = .ofIndex tokens last ∧ first ≤ last ∧ last ≤ tokens.body.length := by
  obtain ⟨taken, hpasses⟩ := h
  have hlength : tokens.body.length - first = taken.length + there.ahead.length := by
    have hahead := congrArg List.length hpasses.ahead
    rwa [Cursor.ofIndex, List.length_drop, List.length_append] at hahead
  exact ⟨first + taken.length, hpasses.eq_ofIndex, by omega, by omega⟩

/-- Whatever is done from an index keeps to the tokens. -/
theorem Conduct.exists_keepsTo {α : Type} {step : ScriptStep α} (h : Conduct step)
    (hfirst : first ≤ tokens.body.length) (builder : SignatureBuilder) :
    ∃ last, KeepsTo tokens first (step (builder, .ofIndex tokens first)) last := by
  obtain ⟨hreaches, habout⟩ := h.isForward (builder, .ofIndex tokens first)
  obtain ⟨last, hplace, hle, hlast⟩ := hreaches.exists_index hfirst
  refine ⟨last, hplace, hle, hlast, fun error herror ↦ ?_⟩
  have hcurrent := habout error herror
  rwa [hplace, Cursor.current, Cursor.tokenAt_ofIndex] at hcurrent

/-- The operations of a script, run from an index, keep to the tokens. -/
theorem Script.allKeepTo_run (script : Script) (hfirst : first ≤ tokens.body.length)
    (builder : SignatureBuilder) :
    AllKeepTo tokens first (script.run (builder, .ofIndex tokens first)) := by
  have hcons {step : ScriptStep Answer} {rest : Script} {first : Nat} {builder : SignatureBuilder}
      (hstep : Conduct step) (hfirst : first ≤ tokens.body.length)
      (hrest : ∀ {last : Nat}, last ≤ tokens.body.length → ∀ gathered,
        AllKeepTo tokens last (rest.run (gathered, .ofIndex tokens last))) :
      AllKeepTo tokens first (step (builder, .ofIndex tokens first) ::
        rest.run (step (builder, .ofIndex tokens first)).2) := by
    obtain ⟨last, hkeeps⟩ := hstep.exists_keepsTo hfirst builder
    have hstate : (step (builder, .ofIndex tokens first)).2 =
        ((step (builder, .ofIndex tokens first)).2.1, .ofIndex tokens last) :=
      Prod.ext rfl hkeeps.place_eq
    refine .cons hkeeps ?_
    rw [hstate]
    exact hrest hkeeps.last_le _
  induction script generalizing first builder with
  | done => exact .nil
  | step operation rest ih => exact hcons (.perform operation) hfirst ih
  | parens body rest _ ih => exact hcons (conduct_inParens body.conduct_answers) hfirst ih

end

/-- With a cursor over some tokens whatever is done keeps to the tokens: the operations of a script,
each from where the one before it stopped, also behind an error, and from any index on all that can
be put together from operations. Questions, whatever they ask, leave everything as it is. -/
theorem keeps_to_tokens (tokens : TokenList) (builder : SignatureBuilder) :
    (∀ script : Script, AllKeepTo tokens 0 (script.run (builder, .start tokens))) ∧
    (∀ {α : Type} {step : ScriptStep α}, Conduct step → ∀ first ≤ tokens.body.length,
      ∃ last, KeepsTo tokens first (step (builder, .ofIndex tokens first)) last) ∧
    ∀ operation : Operation, operation.isQuestion = true → ∀ here,
      (operation.perform here).2 = here := by
  refine ⟨fun script ↦ ?_, fun hstep first hfirst ↦ hstep.exists_keepsTo hfirst builder,
    fun operation hquestion ↦ Operation.perform_of_isQuestion hquestion⟩
  rw [← Cursor.ofIndex_zero]
  exact script.allKeepTo_run (Nat.zero_le _) builder

/-- Reads a group of a parameter with a name, of which it takes more to be missing, and goes on
behind the error. -/
def interruptedScript : Script :=
  .parens (.step (.read (.keyword "param")) (.step (.read .id) (.step (.read (.keyword "i32"))
    .done))) (.step (.choose [.string, .unsigned]) (.step .advance .done))

theorem keeps_to_tokens_interruptedScript :
    AllKeepTo (brokenGroup []) 0
        (interruptedScript.run (.empty true, .start (brokenGroup []))) ∧
      (interruptedScript.run (.empty true, .start (brokenGroup []))).map
          (fun result ↦ (result.1.toOption.isSome, result.2.2.position)) =
        [(false, 4), (false, 4), (true, 5)] ∧
      (∃ last, KeepsTo (brokenGroup []) 1 ((Operation.read .string).perform.attempt
        (.empty true, .ofIndex (brokenGroup []) 1)) last) ∧
      ((Operation.isGroupEnd).perform (.empty true, .ofIndex (brokenGroup []) 6)).2 =
        (.empty true, .ofIndex (brokenGroup []) 6) := by
  obtain ⟨hscripts, hconducts, hquestions⟩ := keeps_to_tokens (brokenGroup []) (.empty true)
  exact ⟨hscripts interruptedScript, by rfl,
    hconducts (.attempt (.perform (.read .string))) 1 (by decide),
    hquestions .isGroupEnd rfl _⟩

end WatTypes
