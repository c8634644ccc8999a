import WatTypes.Grammar.Production
import WatTypes.Proofs.Reading.Module

/-!
# Two tokens of lookahead

What a rule of the grammar does is told by the tokens that it passes and two more: wherever a list
shows the same tokens, from the index at which the rule starts up to the one behind the index at
which it stops, the rule gives the same answer or the same error and stops at the same index
(`lookahead_le_two`). For groups of a signature the same holds of what the builder has gathered,
where an error ends the groups too.

A run is local at a place (`Cursor.IsLocalAt`) if it is told so. Locality is kept by doing one run
behind another (`Cursor.IsLocalAt.andThen`), and by every choice that the next two tokens make
(`Cursor.IsLocalAt.of_eq`). A rule that reads a phrase is local, whatever the phrase is; a rule that
gathers is looked at together with the builder that it leaves (`tracked`), and each loop of it comes
nearer to the end of the input as it reads a phrase too (`isLocal_gatherWhile`). Cursors at the same
index of two lists (`Cursor.ofIndex`) agree as far as the lists show the same tokens
(`TokenList.ShowsAlike`).
-/

set_option autoImplicit false
set_option relaxedAutoImplicit false

namespace WatTypes

/-! ### Local runs -/

namespace Cursor

variable {α β : Type} {here : Cursor}

/-- A run from a place is local: it passes some tokens, and wherever these and two more are the
same, it passes them too and gives the same. -/
def IsLocalAt (run : Cursor → α × Cursor) (here : Cursor) : Prop :=
  ∃ taken, Passes taken here (run here).2 ∧ ∀ other, here.AgreesOn (taken.length + 2) other →
    ∃ there, Passes taken other there ∧ run other = ((run here).1, there)

/-- A run that does what a local run does, wherever the next two tokens are the same, is local. -/
theorem IsLocalAt.of_eq {run other : Cursor → α × Cursor} (h : IsLocalAt other here)
    (heq : ∀ there, here.AgreesOn 2 there → run there = other there) : IsLocalAt run here := by
  obtain ⟨taken, hpasses, hlocal⟩ := h
  have hhere := heq here (.refl 2 here)
  refine ⟨taken, by rwa [hhere], fun there hagrees ↦ ?_⟩
  rw [hhere, heq there (hagrees.mono (by omega))]
  exact hlocal there hagrees

/-- Asking what the next two tokens tell is local. -/
theorem IsLocalAt.stay {question : Cursor → α}
    (h : ∀ other, here.AgreesOn 2 other → question other = question here) :
    IsLocalAt (fun there ↦ (question there, there)) here := by
  refine ⟨[], .refl here, fun other hagrees ↦ ⟨other, .refl other, ?_⟩⟩
  simp only [h other hagrees]

/-- A local run, and behind it one that is local where the first one stops. -/
theorem IsLocalAt.andThen {first : Cursor → α × Cursor} {next : α → Cursor → β × Cursor}
    (hfirst : IsLocalAt first here) (hnext : IsLocalAt (next (first here).1) (first here).2) :
    IsLocalAt (fun there ↦ next (first there).1 (first there).2) here := by
  obtain ⟨left, hleft, hlocal⟩ := hfirst
  obtain ⟨right, hright, hbehind⟩ := hnext
  refine ⟨left ++ right, hleft.trans hright, fun other hagrees ↦ ?_⟩
  rw [List.length_append, Nat.add_assoc] at hagrees
  obtain ⟨middle, hmiddle, hother⟩ := hlocal other (hagrees.mono (by omega))
  obtain ⟨there, hthere, hanswer⟩ := hbehind middle (hagrees.of_passes hleft hmiddle)
  refine ⟨there, hmiddle.trans hthere, ?_⟩
  simp only [hother]
  exact hanswer

/-- A local run, and behind it a question that the next two tokens there tell. -/
theorem IsLocalAt.ask {run : Cursor → α × Cursor} (h : IsLocalAt run here)
    (question : α → Cursor → β)
    (hquestion : ∀ result {there other : Cursor}, there.AgreesOn 2 other →
      question result other = question result there) :
    IsLocalAt (fun there ↦ (question (run there).1 (run there).2, (run there).2)) here :=
  @andThen _ _ _ run (fun result there ↦ (question result there, there)) h
    (.stay fun _ hagrees ↦ hquestion _ hagrees)

end Cursor

namespace Grammar

open Rule Phrase Cursor

variable {α β : Type}

/-- A rule that reads a phrase is local. -/
theorem isLocalAt_of_reads {rule : Rule Cursor α} {phrase : Phrase α} (h : Reads rule phrase)
    (here : Cursor) : IsLocalAt rule here := by
  obtain ⟨taken, hpasses, -, hlocal⟩ := h here
  exact ⟨taken, hpasses, hlocal⟩

/-! ### Local gathering -/

/-- A rule that gathers, seen from a given builder: a run of the cursor that gives the outcome and
the builder that is left, also behind an error. -/
def tracked (rule : SignatureRule α) (builder : SignatureBuilder) (here : Cursor) :
    (Except GrammarError α × SignatureBuilder) × Cursor :=
  (((rule (builder, here)).1, (rule (builder, here)).2.1), (rule (builder, here)).2.2)

/-- What is done behind a tracked rule: the next one where it answers, nothing where it fails. -/
def trackedBehind (next : α → SignatureRule β) :
    Except GrammarError α × SignatureBuilder → Cursor →
      (Except GrammarError β × SignatureBuilder) × Cursor
  | (.ok answer, gathered), there => tracked (next answer) gathered there
  | (.error error, gathered), there => ((.error error, gathered), there)

/-- A tracked sequence is what is done behind its first rule. -/
theorem tracked_bind (first : SignatureRule α) (next : α → SignatureRule β)
    (builder : SignatureBuilder) :
    tracked (first >>= next) builder = fun here ↦
      trackedBehind next (tracked first builder here).1 (tracked first builder here).2 := by
  funext here
  simp only [tracked, Step.bind_apply]
  rcases first (builder, here) with ⟨outcome, gathered, there⟩
  cases outcome <;> rfl

/-- A rule that gathers is local: so it is from every builder and every place. -/
def IsLocal (rule : SignatureRule α) : Prop :=
  ∀ builder here, IsLocalAt (tracked rule builder) here

/-- A rule that does what a local rule does, wherever the next two tokens are the same, is local. -/
theorem isLocalAt_tracked_of_eq {rule other : SignatureRule α} {builder : SignatureBuilder}
    {here : Cursor} (h : IsLocalAt (tracked other builder) here)
    (heq : ∀ there, here.AgreesOn 2 there → rule (builder, there) = other (builder, there)) :
    IsLocalAt (tracked rule builder) here := by
  refine h.of_eq fun there hagrees ↦ ?_
  unfold tracked
  rw [heq there hagrees]

/-- Assumes: a rule that is local from a builder and a place, and a rule behind it that is local
wherever the first one answers. The two in sequence are local there. -/
theorem isLocalAt_tracked_bind {first : SignatureRule α} {next : α → SignatureRule β}
    {builder : SignatureBuilder} {here : Cursor} (hfirst : IsLocalAt (tracked first builder) here)
    (hnext : ∀ answer gathered there, first (builder, here) = (.ok answer, (gathered, there)) →
      IsLocalAt (tracked (next answer) gathered) there) :
    IsLocalAt (tracked (first >>= next) builder) here := by
  rw [tracked_bind]
  apply hfirst.andThen
  unfold tracked
  rcases hrun : first (builder, here) with ⟨outcome, gathered, there⟩
  cases outcome with
  | ok answer => exact hnext answer gathered there hrun
  | error error => exact .stay fun _ _ ↦ rfl

/-- Local rules in sequence are local. -/
theorem IsLocal.bind {first : SignatureRule α} {next : α → SignatureRule β}
    (hfirst : IsLocal first) (hnext : ∀ answer, IsLocal (next answer)) :
    IsLocal (first >>= next) := by
  intro builder here
  apply isLocalAt_tracked_bind (hfirst builder here)
  intro answer gathered there _
  exact hnext answer gathered there

/-- Answering without reading is local. -/
theorem isLocal_pure (answer : α) : IsLocal (pure answer : SignatureRule α) := fun _ _ ↦
  .stay fun _ _ ↦ rfl

/-- Changing the builder is local. -/
theorem isLocal_gather (change : SignatureBuilder → SignatureBuilder) :
    IsLocal (gather change) := fun _ _ ↦
  .stay fun _ _ ↦ rfl

/-- A rule of the cursor that reads a phrase is local for every builder. -/
theorem isLocal_onCursor {rule : Rule Cursor α} {phrase : Phrase α} (h : Reads rule phrase) :
    IsLocal (onCursor rule) := by
  intro builder here
  exact (isLocalAt_of_reads h here).ask (fun outcome _ ↦ (outcome, builder)) fun _ _ _ _ ↦ rfl

/-- Failing where the cursor stands is local. -/
theorem isLocal_fail (error : GrammarError) : IsLocal (Step.fail error : SignatureRule Unit) :=
  fun _ _ ↦ .stay fun _ _ ↦ rfl

section Repetition

variable {more : Cursor → Bool} {rule : SignatureRule Unit}
  {phrase : SignatureBuilder → Phrase SignatureBuilder}

/-- Assumes: a local rule that from every builder reads a phrase of at least one token, and a sign
of more that the next two tokens give. The rounds of its repetition are local: each round that
answers leaves fewer tokens ahead. -/
theorem isLocal_rounds (hrule : IsLocal rule)
    (hmore : ∀ {here there : Cursor}, here.AgreesOn 2 there → more there = more here)
    (hreads : ∀ builder, Reads (gathering rule builder) fun tokens result ↦
      phrase builder tokens result.2)
    (hnonempty : ∀ builder next, ¬ phrase builder [] next) : IsLocal (rounds more rule) := by
  intro builder here
  induction hlength : here.ahead.length using Nat.strongRecOn generalizing builder here with
  | ind length ih =>
    cases hhere : more here with
    | false =>
      apply isLocalAt_tracked_of_eq (isLocal_pure [] builder here)
      intro there hagrees
      rw [rounds_apply hreads hnonempty, hmore hagrees, hhere]
      rfl
    | true =>
      have hround : IsLocalAt (tracked (rule >>= fun answer ↦ rounds more rule >>= fun answers ↦
          pure (answer :: answers)) builder) here := by
        apply isLocalAt_tracked_bind (hrule builder here)
        intro answer gathered there hrun
        have hless := length_ahead_lt_of_gathering hreads hnonempty hrun
        apply isLocalAt_tracked_bind (ih _ (hlength ▸ hless) gathered there rfl)
        intro answers last stop _
        exact isLocal_pure (answer :: answers) last stop
      apply isLocalAt_tracked_of_eq hround
      intro there hagrees
      rw [rounds_apply hreads hnonempty, hmore hagrees, hhere, if_pos rfl]

/-- Assumes: as for the rounds of a repetition. The repetition is local. -/
theorem isLocal_gatherWhile (hrule : IsLocal rule)
    (hmore : ∀ {here there : Cursor}, here.AgreesOn 2 there → more there = more here)
    (hreads : ∀ builder, Reads (gathering rule builder) fun tokens result ↦
      phrase builder tokens result.2)
    (hnonempty : ∀ builder next, ¬ phrase builder [] next) : IsLocal (gatherWhile more rule) := by
  rw [gatherWhile_eq]
  exact (isLocal_rounds hrule hmore hreads hnonempty).bind fun _ ↦ isLocal_pure ()

end Repetition

/-! ### The rules of signatures -/

/-- Gathering value types up to the end of a group is local. -/
theorem isLocal_gatherTypes (add : SignatureBuilder → ValType → SignatureBuilder) :
    IsLocal (gatherWhile (fun there ↦ !there.isGroupEnd) (onCursor Grammar.valType >>= fun ty ↦
      gather fun gathered ↦ add gathered ty)) := by
  have hgather := (isLocal_onCursor reads_valType).bind fun ty ↦
    isLocal_gather fun gathered ↦ add gathered ty
  exact isLocal_gatherWhile hgather (fun hagrees ↦ by rw [hagrees.isGroupEnd_eq])
    (reads_gatherType add) (not_typeStep_nil add)

/-- Gathering parameters behind a name, or without one, is local. -/
theorem isLocal_typesBehind (id : Option Id) (name : Option DisplayName) :
    IsLocal (typesBehind id name) := by
  unfold typesBehind
  split
  · exact (isLocal_onCursor reads_valType).bind fun ty ↦ isLocal_gather _
  · exact isLocal_gatherTypes fun gathered ty ↦ gathered.addParam (.anonymous ty)

/-- The inside of a group of parameters is local. -/
theorem isLocal_params : IsLocal Grammar.params := by
  intro builder here
  cases hend : here.isGroupEnd with
  | true =>
    apply isLocalAt_tracked_of_eq (isLocal_pure () builder here)
    intro there hagrees
    exact params_of_isGroupEnd (by rw [hagrees.isGroupEnd_eq, hend])
  | false =>
    cases hallows : builder.allowsNames with
    | false =>
      apply isLocalAt_tracked_of_eq (isLocal_typesBehind none none builder here)
      intro there hagrees
      exact params_of_not_allowsNames (by rw [hagrees.isGroupEnd_eq, hend]) hallows
    | true =>
      have hnamed := (isLocal_onCursor reads_optionalId).bind fun id ↦
        (isLocal_onCursor reads_optionalName).bind fun name ↦ isLocal_typesBehind id name
      apply isLocalAt_tracked_of_eq (hnamed builder here)
      intro there hagrees
      exact params_of_allowsNames (by rw [hagrees.isGroupEnd_eq, hend]) hallows

/-- The inside of a group of a signature is local, also where it comes too late. -/
theorem isLocal_insideGroup : IsLocal insideGroup := by
  intro builder here
  cases hparam : here.shows 0 (.keyword "param") with
  | false =>
    have hresults := (isLocal_onCursor (Reads.keyword "result")).bind fun _ ↦
      isLocal_gatherTypes fun gathered ty ↦ gathered.addResult ty
    apply isLocalAt_tracked_of_eq (hresults builder here)
    intro there hagrees
    simp only [insideGroup, hagrees.shows_eq, hparam, Bool.false_eq_true, if_false]
    rfl
  | true =>
    by_cases hresults : builder.results.isEmpty = true
    · have hparams := (isLocal_onCursor (Reads.keyword "param")).bind fun _ ↦ isLocal_params
      apply isLocalAt_tracked_of_eq (hparams builder here)
      intro there hagrees
      simp only [insideGroup, hagrees.shows_eq, hparam, hresults, if_true]
    · have hlate := isLocal_fail (.paramAfterResult here.current.span)
      apply isLocalAt_tracked_of_eq (hlate builder here)
      intro there hagrees
      simp [insideGroup, hagrees.shows_eq, hagrees.current_eq, hparam, hresults]

/-- A group of a signature is local. -/
theorem isLocal_signatureGroup : IsLocal Grammar.signatureGroup := by
  have hopening := Reads.lexeme .opening (by decide) rfl
  have hclosing := Reads.lexeme .closing (by decide) rfl
  rw [signatureGroup_eq]
  exact (isLocal_onCursor hopening).bind fun _ ↦ isLocal_insideGroup.bind fun _ ↦
    isLocal_onCursor hclosing

/-- The groups of a signature are local. -/
theorem isLocal_signatureGroups : IsLocal signatureGroups :=
  isLocal_gatherWhile isLocal_signatureGroup (fun hagrees ↦ hagrees.opensSignatureGroup_eq)
    reads_signatureGroup not_groupStep_nil

/-! ### The productions -/

/-- A module from where its parts are read: it is whole if the input ends there. -/
def moduleBehind (start : Span) :
    Except GrammarError (Option Id × List Field) → Cursor → Except GrammarError TypeModule
  | .error error, _ => .error error
  | .ok parts, there =>
    if there.isAtEnd then
      .ok ⟨parts.1, parts.2, start.file, start.first, there.current.span.last⟩
    else .error (there.unexpected [Lexeme.endOfInput.describe])

/-- The next tokens tell whether a module is whole. -/
theorem moduleBehind_eq_of_agreesOn (start : Span)
    (parts : Except GrammarError (Option Id × List Field)) {here other : Cursor}
    (h : here.AgreesOn 2 other) :
    moduleBehind start parts other = moduleBehind start parts here := by
  cases parts with
  | error error => rfl
  | ok parts =>
    simp only [moduleBehind, h.isAtEnd_eq, h.current_eq, h.unexpected_eq]

/-- The rule of a module is local. -/
theorem isLocalAt_module (here : Cursor) : IsLocalAt Grammar.module here := by
  have hparts := isLocalAt_of_reads reads_moduleParts here
  apply (hparts.ask (moduleBehind here.current.span) (moduleBehind_eq_of_agreesOn _)).of_eq
  intro there hagrees
  simp only [module_apply, hagrees.current_eq]
  rcases moduleParts there with ⟨parts, behind⟩
  cases parts with
  | error error => rfl
  | ok parts =>
    simp only [moduleBehind]
    split <;> rfl

/-- Every production is local. -/
theorem isLocalAt_rule (production : Production) (here : Cursor) :
    IsLocalAt production.rule here := by
  cases production with
  | valType => exact isLocalAt_of_reads reads_valType here
  | elemType => exact isLocalAt_of_reads reads_elemType here
  | limits => exact isLocalAt_of_reads reads_limits here
  | globalType => exact isLocalAt_of_reads reads_globalType here
  | tableType => exact isLocalAt_of_reads reads_tableType here
  | memoryType => exact isLocalAt_of_reads reads_memoryType here
  | signature allowsNames => exact isLocalAt_of_reads (reads_signature allowsNames) here
  | functionType => exact isLocalAt_of_reads reads_functionType here
  | typeField => exact isLocalAt_of_reads (reads_fieldOf .type) here
  | typeUse allowsNames => exact isLocalAt_of_reads (reads_typeUse allowsNames) here
  | field => exact isLocalAt_of_reads reads_field here
  | module => exact isLocalAt_module here

end Grammar

/-! ### Lists that show the same tokens -/

namespace TokenList

/-- The token at an index of a list; behind the last one the end of the input. -/
def tokenAt (tokens : TokenList) (index : Nat) : Token :=
  (tokens.body[index]?).getD ⟨.endOfInput, tokens.stop⟩

/-- A list shows the same tokens as another one from an index up to another index. -/
def ShowsAlike (tokens others : TokenList) (first last : Nat) : Prop :=
  ∀ index, first ≤ index → index ≤ last → others.tokenAt index = tokens.tokenAt index

end TokenList

namespace Cursor

/-- The cursor at an index of a list, which has passed the tokens at all smaller ones. -/
def ofIndex (tokens : TokenList) (index : Nat) : Cursor :=
  ⟨((List.range index).map tokens.tokenAt).reverse, tokens.body.drop index, tokens.stop⟩

variable {tokens others : TokenList} {index first : Nat}

theorem ofIndex_zero (tokens : TokenList) : ofIndex tokens 0 = start tokens := rfl

@[simp] theorem position_ofIndex (tokens : TokenList) (index : Nat) :
    (ofIndex tokens index).position = index := by
  simp [position, ofIndex]

theorem tokenAt_ofIndex (tokens : TokenList) (index distance : Nat) :
    (ofIndex tokens index).tokenAt distance = tokens.tokenAt (index + distance) := by
  simp [tokenAt, ofIndex, endToken, TokenList.tokenAt]

/-- The tokens passed from an index are those at the indices that follow. -/
theorem Passes.eq_map_tokenAt {taken : List Token} {there : Cursor}
    (h : Passes taken (ofIndex tokens index) there) :
    taken = (List.range taken.length).map fun distance ↦ tokens.tokenAt (index + distance) := by
  apply List.ext_getElem (by simp)
  intro distance hdistance _
  rw [List.getElem_map, List.getElem_range, ← tokenAt_ofIndex, tokenAt, h.ahead,
    List.getElem?_append_left hdistance, List.getElem?_eq_getElem hdistance]
  rfl

/-- Behind the tokens passed from an index a cursor is at the index that is larger by as many. -/
theorem Passes.eq_ofIndex {taken : List Token} {there : Cursor}
    (h : Passes taken (ofIndex tokens index) there) :
    there = ofIndex tokens (index + taken.length) := by
  have hahead : tokens.body.drop index = taken ++ there.ahead := h.ahead
  refine h.eq_of_same ⟨?_, ?_, rfl⟩
  · change tokens.body.drop index = taken ++ tokens.body.drop (index + taken.length)
    rw [← List.drop_drop, hahead, List.drop_left]
  · simp only [ofIndex, List.range_add, List.map_append, List.map_map, List.reverse_append]
    congr 2
    exact h.eq_map_tokenAt.symm

/-- Cursors at one index show the same as far as their lists do. -/
theorem agreesOn_ofIndex {bound last : Nat} (h : tokens.ShowsAlike others first last)
    (hbound : first + bound ≤ last + 1) :
    (ofIndex tokens first).AgreesOn bound (ofIndex others first) := by
  intro distance hdistance
  rw [tokenAt_ofIndex, tokenAt_ofIndex]
  exact (h _ (Nat.le_add_right _ _) (by omega)).symm

/-- A local run from an index stops at an index, and it does the same from there in every list that
shows the same tokens up to the one behind. -/
theorem IsLocalAt.exists_last {α : Type} {run : Cursor → α × Cursor}
    (h : IsLocalAt run (ofIndex tokens first)) :
    ∃ result last, run (ofIndex tokens first) = (result, ofIndex tokens last) ∧
      ∀ others, tokens.ShowsAlike others first (last + 1) →
        run (ofIndex others first) = (result, ofIndex others last) := by
  obtain ⟨taken, hpasses, hlocal⟩ := h
  refine ⟨(run (ofIndex tokens first)).1, first + taken.length, ?_, fun others halike ↦ ?_⟩
  · rw [← hpasses.eq_ofIndex]
  · obtain ⟨there, hthere, hother⟩ := hlocal _ (agreesOn_ofIndex halike (by omega))
    rw [hother, hthere.eq_ofIndex]

end Cursor

open Grammar in
/-- Every production, from every index of every list of tokens, stops at an index, with an answer or
an error, and in every list that shows the same tokens from the one index up to the one behind the
other it gives the same answer or the same error and stops at the same index. So do the groups of a
signature from every builder, which moreover leave the same builder. -/
theorem lookahead_le_two (tokens : TokenList) (first : Nat) :
    (∀ production : Production, ∃ outcome last,
      production.rule (.ofIndex tokens first) = (outcome, .ofIndex tokens last) ∧
        ∀ others, tokens.ShowsAlike others first (last + 1) →
          production.rule (.ofIndex others first) = (outcome, .ofIndex others last)) ∧
    ∀ builder : SignatureBuilder, ∃ outcome gathered last,
      signatureGroups (builder, .ofIndex tokens first) =
          (outcome, (gathered, .ofIndex tokens last)) ∧
        ∀ others, tokens.ShowsAlike others first (last + 1) →
          signatureGroups (builder, .ofIndex others first) =
            (outcome, (gathered, .ofIndex others last)) := by
  constructor
  · intro production
    exact (isLocalAt_rule production (.ofIndex tokens first)).exists_last
  · intro builder
    have hlocal := isLocal_signatureGroups builder (.ofIndex tokens first)
    obtain ⟨⟨outcome, gathered⟩, last, hrun, hothers⟩ := hlocal.exists_last
    simp only [tracked, Prod.mk.injEq] at hrun hothers
    obtain ⟨⟨houtcome, hgathered⟩, hlast⟩ := hrun
    refine ⟨outcome, gathered, last, ?_, fun others halike ↦ ?_⟩
    · rw [← houtcome, ← hgathered, ← hlast]
    · obtain ⟨⟨houtcome, hgathered⟩, hlast⟩ := hothers others halike
      rw [← houtcome, ← hgathered, ← hlast]

/-- The tokens of a parameter with a name and two types, one too many, with others behind them. -/
def brokenGroup (behind : List Lexeme) : TokenList :=
  ⟨(.opening :: .keyword "param" :: .id "x" :: .keyword "i32" :: .keyword "i64" ::
    .keyword "f32" :: behind).map Grammar.bareToken, .single "" .first⟩

theorem lookahead_le_two_brokenGroup :
    ∃ error gathered,
      Production.rule (.signature true) (.ofIndex (brokenGroup []) 0) =
          (.error error, .ofIndex (brokenGroup []) 4) ∧
        Production.rule (.signature true) (.ofIndex (brokenGroup [.closing]) 0) =
          (.error error, .ofIndex (brokenGroup [.closing]) 4) ∧
        Grammar.signatureGroups (.empty true, .ofIndex (brokenGroup [.closing]) 0) =
          (.error error, (gathered, .ofIndex (brokenGroup [.closing]) 4)) ∧
        gathered.params.map Param.ty = [.i32] := by
  have halike : (brokenGroup []).ShowsAlike (brokenGroup [.closing]) 0 5 := by
    have hcommon : ∀ index < 6,
        (brokenGroup [.closing]).tokenAt index = (brokenGroup []).tokenAt index := by
      decide
    exact fun index _ hle ↦ hcommon index (Nat.lt_succ_of_le hle)
  have hgroup : ∃ error gathered,
      Grammar.signatureGroup (.empty true, .ofIndex (brokenGroup []) 0) =
          (.error error, (gathered, .ofIndex (brokenGroup []) 4)) ∧
        gathered.params.map Param.ty = [.i32] :=
    ⟨_, _, rfl, rfl⟩
  obtain ⟨error, gathered, hgroup, hparams⟩ := hgroup
  have hgroups : Grammar.signatureGroups (.empty true, .ofIndex (brokenGroup []) 0) =
      (.error error, (gathered, .ofIndex (brokenGroup []) 4)) := by
    have hmore : (Cursor.ofIndex (brokenGroup []) 0).opensSignatureGroup = true := by decide
    simp only [Grammar.signatureGroups, Grammar.gatherWhile, Step.bind_apply]
    rw [Step.whileMore]
    simp only [hmore, if_true, hgroup]
  have hsignature : Production.rule (.signature true) (.ofIndex (brokenGroup []) 0) =
      (.error error, .ofIndex (brokenGroup []) 4) := by
    simp only [Production.rule, Grammar.signature, hgroups]
  obtain ⟨hproductions, hbuilders⟩ := lookahead_le_two (brokenGroup []) 0
  obtain ⟨outcome, stop, hrun, hothers⟩ := hproductions (.signature true)
  obtain ⟨result, left, last, hleave, hleaves⟩ := hbuilders (.empty true)
  obtain ⟨houtcome, hplace⟩ := Prod.mk.inj (hsignature.symm.trans hrun)
  obtain ⟨hresult, hstate⟩ := Prod.mk.inj (hgroups.symm.trans hleave)
  obtain ⟨hleft, hbehind⟩ := Prod.mk.inj hstate
  have hstop : 4 = stop := by simpa using congrArg Cursor.position hplace
  have hlast : 4 = last := by simpa using congrArg Cursor.position hbehind
  subst houtcome hresult hleft hstop hlast
  exact ⟨error, gathered, hrun, hothers _ halike, hleaves _ halike, hparams⟩

end WatTypes
