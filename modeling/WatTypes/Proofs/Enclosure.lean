import WatTypes.Proofs.CorrectPrefix
import WatTypes.Proofs.CursorDiscipline
import WatTypes.Proofs.Outlining.Quotation
import WatTypes.Proofs.Sources

/-!
# Reading stays in its group

The parentheses of a source that is read are balanced. What a rule of the grammar passes, whether it
answers or fails, are balanced tokens or the start of such tokens (`Cursor.StaysIn`), and these
close no parenthesis that was open where the rule started (`TokenList.InGroup`): the rule stops in
the group that it started in, and so before the end of the input.

A whole module is read from outside of all parentheses. If reading it came to the end of the input
and failed there, then all tokens would be the start of a module; but balanced tokens that start a
module are one themselves (`exists_module_of_append`). So an error is always about a token of the
source, and no message says that the end of the input was found (`error_before_end_of_read`).
-/

set_option autoImplicit false
set_option relaxedAutoImplicit false

namespace WatTypes

open Grammar Lexeme Rule

/-! ### Balanced starts of phrases -/

section Starts

variable {α : Type} {front more : List Token}

/-- As many parentheses are closed as are opened. -/
def ClosesAll (tokens : List Token) : Prop :=
  (lexemesOf tokens).count .closing = (lexemesOf tokens).count .opening

/-- Balanced tokens close all parentheses that they open. -/
theorem closesAll_of_balanced (h : Balanced (lexemesOf front)) : ClosesAll front := by
  have hcount := count_of_depthBehind? (h.nests_none 0)
  unfold ClosesAll
  omega

/-- Of a group, which opens a parenthesis first and closes it last, only nothing and the whole close
all parentheses that they open. -/
theorem eq_nil_of_append_eq_group {phrase : Phrase α} (hphrase : phrase.IsBalanced) {value : α}
    (h : phrase.parens (front ++ more) value) (hfront : ClosesAll front) :
    front = [] ∨ more = [] := by
  obtain ⟨opening, closing, inner, htokens, hopening, -, hinner⟩ := h
  cases front with
  | nil => exact .inl rfl
  | cons first behind =>
    right
    rw [List.cons_append, List.cons_append] at htokens
    obtain ⟨rfl, hbehind⟩ := List.cons.inj htokens
    rcases List.eq_nil_or_concat more with hnil | ⟨others, last, rfl⟩
    · exact hnil
    · rw [List.concat_eq_append, ← List.append_assoc] at hbehind
      obtain ⟨hinside, -⟩ := List.append_inj' hbehind rfl
      have hle := count_le_of_isPrefix ((hphrase hinner).nests_none 0)
        (hinside ▸ lexemesOf_append behind others ▸ List.prefix_append _ _)
      rw [ClosesAll, lexemesOf_cons, hopening] at hfront
      have hother : Lexeme.opening ≠ .closing := by decide
      simp only [List.count_cons_self, List.count_cons_of_ne hother] at hfront
      omega

/-- Of groups one after the other, what closes all parentheses that it opens is groups too. -/
theorem exists_many_of_append {phrase : Phrase α} (hphrase : phrase.IsBalanced) {values : List α}
    (h : Phrase.Many phrase.parens (front ++ more) values) (hfront : ClosesAll front) :
    ∃ found, Phrase.Many phrase.parens front found := by
  generalize htokens : front ++ more = tokens at h
  induction h generalizing front with
  | nil =>
    rw [(List.append_eq_nil_iff.mp htokens).1]
    exact ⟨[], .nil⟩
  | @cons first others value values hfirst _ ih =>
    rcases List.append_eq_append_iff.mp htokens with ⟨behind, rfl, -⟩ | ⟨behind, rfl, hothers⟩
    · rcases eq_nil_of_append_eq_group hphrase hfirst hfront with rfl | rfl
      · exact ⟨[], .nil⟩
      · rw [List.append_nil] at hfirst
        have hgroups := Phrase.Many.cons hfirst .nil
        rw [List.append_nil] at hgroups
        exact ⟨_, hgroups⟩
    · have hclosed := closesAll_of_balanced (hphrase.parens hfirst)
      have hbehind : ClosesAll behind := by
        unfold ClosesAll at hfront hclosed ⊢
        simp only [lexemesOf_append, List.count_append] at hfront
        omega
      obtain ⟨found, hfound⟩ := ih hbehind hothers.symm
      exact ⟨_, .cons hfirst hfound⟩

/-- What starts a module and closes all parentheses that it opens is a module. -/
theorem exists_module_of_append {parts : Option Id × List Field}
    (h : Derivation.module (front ++ more) parts) (hfront : ClosesAll front) :
    ∃ found, Derivation.module front found := by
  rcases h with hwrapped | ⟨fields, hfields, -⟩
  · have hinside := ((isBalanced_word "module").both
      (isBalanced_id.optional.both isBalanced_field.parens.many)).map Prod.snd
    rcases eq_nil_of_append_eq_group hinside hwrapped hfront with rfl | rfl
    · exact ⟨_, .inr ⟨[], .nil, rfl⟩⟩
    · rw [List.append_nil] at hwrapped
      exact ⟨_, .inl hwrapped⟩
  · obtain ⟨found, hfound⟩ := exists_many_of_append isBalanced_field hfields hfront
    exact ⟨_, .inr ⟨found, hfound, rfl⟩⟩

end Starts

/-! ### Runs that stay in their group -/

namespace Cursor

variable {α : Type}

/-- A run stays in the group that it starts in: the tokens that it passes start balanced ones. -/
def StaysIn (run : Cursor → α × Cursor) (here : Cursor) : Prop :=
  ∃ taken more, Passes taken here (run here).2 ∧ Balanced (lexemesOf (taken ++ more))

/-- A rule that reads balanced phrases stays in its group, also where it fails. -/
theorem staysIn_of_reads {rule : Rule Cursor α} {phrase : Phrase α} (h : Reads rule phrase)
    (hphrase : phrase.IsBalanced) (here : Cursor) : StaysIn rule here := by
  obtain ⟨taken, hpasses, houtcome, -⟩ := h here
  cases hrun : (rule here).1 with
  | ok value =>
    rw [hrun] at houtcome
    exact ⟨taken, [], hpasses, by simpa using hphrase houtcome⟩
  | error error =>
    rw [hrun] at houtcome
    obtain ⟨more, value, hvalue⟩ := houtcome.completed
    exact ⟨taken, more, hpasses, hphrase hvalue⟩

end Cursor

namespace Grammar

open Cursor

/-- The rule of a module stays in its group. -/
theorem staysIn_module (here : Cursor) : StaysIn Grammar.module here := by
  obtain ⟨taken, more, hpasses, hbalanced⟩ :=
    staysIn_of_reads reads_moduleParts isBalanced_module here
  refine ⟨taken, more, ?_, hbalanced⟩
  rw [module_apply]
  rcases hparts : moduleParts here with ⟨outcome, there⟩
  rw [hparts] at hpasses
  cases outcome with
  | error error => exact hpasses
  | ok parts =>
    simp only
    split <;> exact hpasses

/-- Every rule of the grammar stays in its group. -/
theorem staysIn_rule (production : Production) (here : Cursor) : StaysIn production.rule here := by
  cases production with
  | valType => exact staysIn_of_reads reads_valType isBalanced_valType here
  | elemType => exact staysIn_of_reads reads_elemType isBalanced_elemType here
  | limits => exact staysIn_of_reads reads_limits isBalanced_limits here
  | globalType => exact staysIn_of_reads reads_globalType isBalanced_globalType here
  | tableType => exact staysIn_of_reads reads_tableType isBalanced_tableType here
  | memoryType => exact staysIn_of_reads reads_memoryType isBalanced_memoryType here
  | signature allowsNames =>
    exact staysIn_of_reads (reads_signature allowsNames) (isBalanced_signature allowsNames) here
  | functionType => exact staysIn_of_reads reads_functionType isBalanced_functionType here
  | typeField =>
    exact staysIn_of_reads (reads_fieldOf .type)
      (isBalanced_fieldOf "type" (isBalanced_functionType.parens.map _)) here
  | typeUse allowsNames =>
    exact staysIn_of_reads (reads_typeUse allowsNames) (isBalanced_typeUse allowsNames) here
  | field => exact staysIn_of_reads reads_field isBalanced_field here
  | module => exact staysIn_module here

/-- The groups of a signature, read into any builder, stay in the group around them. -/
theorem staysIn_signatureGroups (builder : SignatureBuilder) (here : Cursor) :
    StaysIn (tracked signatureGroups builder) here := by
  have hgroups : Reads (gathering signatureGroups builder) _ :=
    reads_gatherWhile (fun hagrees ↦ hagrees.opensSignatureGroup_eq) reads_signatureGroup
      not_groupStep_nil builder
  have hbalanced : Phrase.IsBalanced fun tokens (result : Unit × SignatureBuilder) ↦
      Phrase.Chain (groupStep Derivation.group) builder tokens result.2 := by
    intro tokens result hchain
    obtain ⟨groups, hgroups, -⟩ := chain_groupStep_iff.mp hchain
    exact (isBalanced_group builder.allowsNames).many hgroups
  obtain ⟨taken, more, hpasses, hmore⟩ := staysIn_of_reads hgroups hbalanced here
  refine ⟨taken, more, ?_, hmore⟩
  rw [gathering] at hpasses
  rw [tracked]
  rcases hrun : signatureGroups (builder, here) with ⟨outcome, gathered, there⟩
  rw [hrun] at hpasses
  cases outcome <;> exact hpasses

end Grammar

/-! ### Indices in a group -/

namespace TokenList

/-- From an index up to another one no parenthesis is closed that was open before: what stands
between them closes, up to wherever one looks, no more parentheses than it opens. -/
def InGroup (tokens : TokenList) (first last : Nat) : Prop :=
  ∀ front, front <+: lexemesOf ((tokens.body.drop first).take (last - first)) →
    front.count .closing ≤ front.count .opening

/-- An index lies inside of parentheses. -/
def IsInside (tokens : TokenList) (index : Nat) : Prop :=
  (lexemesOf (tokens.body.take index)).count .closing <
    (lexemesOf (tokens.body.take index)).count .opening

/-- From an index of some tokens on, reading stops at an index of the same group, and before the end
of the input if there is a group; an error is about the token there. -/
structure StopsInGroup {α : Type} (tokens : TokenList) (first : Nat)
    (result : Except GrammarError α × Cursor) (last : Nat) : Prop where
  /-- The cursor stands at the index. -/
  place_eq : result.2 = .ofIndex tokens last
  /-- It has not gone back. -/
  first_le : first ≤ last
  /-- The index is in the same group. -/
  inGroup : tokens.InGroup first last
  /-- Inside of parentheses the input does not end. -/
  lt_length : tokens.IsInside first → last < tokens.body.length
  /-- An error is about the token there. -/
  isAbout : ∀ error, result.1 = .error error → error.IsAbout (tokens.tokenAt last)

variable {tokens : TokenList} {first last : Nat}

/-- An index in the group around one that is inside of parentheses is inside of them too. -/
theorem InGroup.isInside (h : tokens.InGroup first last) (hfirst : first ≤ last)
    (hinside : tokens.IsInside first) : tokens.IsInside last := by
  have hwhole : tokens.body.take last =
      tokens.body.take first ++ (tokens.body.drop first).take (last - first) := by
    rw [← List.take_add, Nat.add_sub_cancel' hfirst]
  have hbetween := h _ (List.prefix_refl _)
  unfold IsInside at hinside ⊢
  rw [hwhole, lexemesOf_append, List.count_append, List.count_append]
  omega

/-- Where all parentheses are closed, an index inside of some is not at the end. -/
theorem IsInside.lt_length (h : tokens.IsInside last) (hclosed : ClosesAll tokens.body) :
    last < tokens.body.length := by
  by_contra hend
  rw [IsInside, List.take_of_length_le (Nat.not_lt.mp hend)] at h
  exact absurd hclosed (Nat.ne_of_lt h)

/-- A run that stays in its group and goes forward from an index stops at an index of the group. -/
theorem exists_stopsInGroup {α : Type} (hclosed : ClosesAll tokens.body)
    {run : Cursor → Except GrammarError α × Cursor}
    (hstays : (Cursor.ofIndex tokens first).StaysIn run)
    (habout : ∀ error, (run (.ofIndex tokens first)).1 = .error error →
      error.IsAbout (run (.ofIndex tokens first)).2.current) :
    ∃ last, tokens.StopsInGroup first (run (.ofIndex tokens first)) last := by
  obtain ⟨taken, more, hpasses, hbalanced⟩ := hstays
  have htaken : (tokens.body.drop first).take (first + taken.length - first) = taken := by
    have hahead : tokens.body.drop first = taken ++ _ := hpasses.ahead
    rw [hahead, Nat.add_sub_cancel_left, List.take_left]
  have hgroup : tokens.InGroup first (first + taken.length) := by
    intro front hfront
    rw [htaken] at hfront
    rw [lexemesOf_append] at hbalanced
    exact count_le_of_isPrefix (hbalanced.nests_none 0) (hfront.trans (List.prefix_append _ _))
  refine ⟨first + taken.length, hpasses.eq_ofIndex, Nat.le_add_right _ _, hgroup,
    fun hinside ↦ (hgroup.isInside (Nat.le_add_right _ _) hinside).lt_length hclosed,
    fun error herror ↦ ?_⟩
  have hcurrent := habout error herror
  rwa [hpasses.eq_ofIndex, Cursor.current, Cursor.tokenAt_ofIndex] at hcurrent

end TokenList

/-! ### What errors say -/

/-- The description of a lexeme other than the end of the input ends in a quotation mark of some
kind. -/
theorem Lexeme.exists_describe_eq {lexeme : Lexeme} (h : lexeme ≠ .endOfInput) :
    ∃ front mark, lexeme.describe.toList = front ++ [mark] ∧ mark ≠ 't' := by
  have hticks (front word : String) :
      ∃ before mark, (front ++ word ++ "`").toList = before ++ [mark] ∧ mark ≠ 't' :=
    ⟨(front ++ word).toList, '`', String.toList_append, by decide⟩
  cases lexeme with
  | opening => exact ⟨['`', '('], '`', rfl, by decide⟩
  | closing => exact ⟨['`', ')'], '`', rfl, by decide⟩
  | keyword word => exact hticks "`" word
  | id name => exact hticks "`$" name
  | annotationHead name => exact hticks "`@" name
  | integer literal => exact hticks "`" literal
  | float literal => exact hticks "`" literal
  | string text =>
    let mark := Text.quotationMark text.toList
    have hmark : mark ≠ 't' := by
      rcases Text.quotationMark_cases text.toList with h | h <;> simp only [mark, h] <;> decide
    have hquoted : (Text.quoted text).toList =
        mark :: text.toList.flatMap (Text.quotedChar mark) ++ [mark] := String.toList_ofList
    refine ⟨"string ".toList ++ mark :: text.toList.flatMap (Text.quotedChar mark), mark, ?_, hmark⟩
    change ("string " ++ Text.quoted text).toList = _
    rw [String.toList_append, hquoted, List.append_assoc]
  | endOfInput => exact absurd rfl h

/-- An error about a token other than the end of the input does not say that the end was found. -/
theorem GrammarError.IsAbout.not_foundEnd {token : Token} {error : GrammarError}
    (h : error.IsAbout token) (htoken : token.lexeme ≠ .endOfInput) :
    ¬ ("found " ++ Lexeme.endOfInput.describe).toList <:+ error.message.toList := by
  intro hsuffix
  cases error with
  | paramAfterResult span =>
    change _ <:+ "cannot list params after results".toList at hsuffix
    revert hsuffix
    decide
  | unexpected expected found span =>
    obtain ⟨rfl, -⟩ := h
    obtain ⟨front, mark, hdescribe, hmark⟩ := exists_describe_eq htoken
    have hmessage : (message (.unexpected expected token.lexeme.describe span)).toList =
        ("expected " ++ wanted expected ++ ", found ").toList ++ token.lexeme.describe.toList := by
      simp only [message, toString]
      rw [String.toList_append]
    obtain ⟨before, hbefore⟩ := hsuffix
    rw [hmessage, hdescribe, ← List.append_assoc] at hbefore
    have hlast := congrArg List.getLast? hbefore
    rw [List.getLast?_append_of_ne_nil _ (by decide), List.getLast?_concat] at hlast
    exact hmark (Option.some.inj hlast).symm

/-- An error about a token points at it. -/
theorem GrammarError.IsAbout.span_eq {token : Token} {error : GrammarError}
    (h : error.IsAbout token) : error.span = token.span := by
  cases error with
  | unexpected => exact h.2
  | paramAfterResult => exact h

/-- The diagnostic of an error about a token is labelled with the span of the token. -/
theorem GrammarError.IsAbout.labels_eq {token : Token} {error : GrammarError}
    (h : error.IsAbout token) : error.diagnostic.labels = [⟨token.span, ""⟩] := by
  rw [← h.span_eq, GrammarError.diagnostic, Diagnostic.ofSpan]

/-- The code of an error is one of two. -/
theorem GrammarError.code_cases (error : GrammarError) :
    error.code = "E200" ∨ error.code = "E201" := by
  cases error with
  | unexpected => exact .inl rfl
  | paramAfterResult => exact .inr rfl

/-! ### Sources -/

section

variable {file : String} {limit : Option NestingLimit} {source : String} {tokens : TokenList}

/-- Assumes: the tokens close all parentheses that they open. Where reading them as a module fails,
tokens are left. -/
theorem ahead_ne_nil_of_error (hclosed : ClosesAll tokens.body) {error : GrammarError}
    {there : Cursor} (hrun : Grammar.module (.start tokens) = (.error error, there)) :
    there.ahead ≠ [] := by
  intro hnil
  obtain ⟨taken, hpasses, houtcome, -⟩ := passes_of_error hrun
  have hall : tokens.body = taken := by simpa [Cursor.start, hnil] using hpasses.ahead
  have hmodule : ∃ parts, Derivation.module tokens.body parts := by
    rcases houtcome with hcontinues | ⟨hmodule, -⟩
    · obtain ⟨more, parts, hparts⟩ := hcontinues.completed
      exact exists_module_of_append (hall ▸ hparts) hclosed
    · exact hall ▸ hmodule
  obtain ⟨parts, hparts⟩ := hmodule
  have hread := ofTokens_of_module hparts
  rw [TypeModule.ofTokens, hrun] at hread
  cases hread

/-- Assumes: the tokens close all parentheses that they open. An error in reading them as a module
is about one of them. -/
theorem exists_isAbout_of_error (hclosed : ClosesAll tokens.body) {error : GrammarError}
    (h : TypeModule.ofTokens tokens = .error error) :
    ∃ token ∈ tokens.body, error.IsAbout token := by
  have habout : error.IsAbout (Grammar.module (.start tokens)).2.current :=
    (isForward_module (.start tokens)).about_current error h
  rcases hrun : Grammar.module (.start tokens) with ⟨outcome, there⟩
  rw [hrun] at habout
  have houtcome : outcome = .error error := by rw [← h, TypeModule.ofTokens, hrun]
  subst houtcome
  obtain ⟨taken, hpasses, -⟩ := passes_of_error hrun
  have hbody : tokens.body = taken ++ there.ahead := hpasses.ahead
  obtain ⟨token, rest, hahead⟩ := List.exists_cons_of_ne_nil (ahead_ne_nil_of_error hclosed hrun)
  have hcurrent : there.current = token := by
    rw [Cursor.current, Cursor.tokenAt, hahead]
    rfl
  refine ⟨token, ?_, hcurrent ▸ habout⟩
  rw [hbody, hahead]
  exact List.mem_append_right _ List.mem_cons_self

/-- The parentheses of a source that is read are all closed. -/
theorem closesAll_of_read (h : TokenList.read file limit source = .ok tokens) :
    ClosesAll tokens.body := by
  have hcount := count_of_depthBehind? (scanned_of_read h).depthBehind
  unfold ClosesAll
  omega

/-- Where the tokens of a source are not those of a module, the first error of their grammar is all
that is reported. -/
theorem exists_error_of_read (h : TokenList.read file limit source = .ok tokens)
    {refusal : Refusal} (hrefused : TypeModule.read file limit source = .error refusal) :
    ∃ error, TypeModule.ofTokens tokens = .error error ∧
      refusal.diagnostics = [error.diagnostic] := by
  rw [TypeModule.read, h] at hrefused
  simp only at hrefused
  cases houtcome : TypeModule.ofTokens tokens with
  | ok found =>
    rw [houtcome] at hrefused
    cases hrefused
  | error error =>
    rw [houtcome] at hrefused
    cases hrefused
    exact ⟨error, rfl, rfl⟩

/-- Assumes: a source is read into tokens. No parenthesis is closed that was not opened, and all are
closed. Each rule, from wherever it is started, stops in the group where it started, and so before
the end of the input if there is a group. If the tokens are not those of a module, then the single
diagnostic is labelled with the span of a token of the source, which is not the end of the input,
and does not say that the end of the input was found. -/
theorem error_before_end_of_read (h : TokenList.read file limit source = .ok tokens) :
    (ClosesAll tokens.body ∧
      ∀ front, front <+: lexemesOf tokens.body → front.count .closing ≤ front.count .opening) ∧
    (∀ (production : Production) first, ∃ last,
      tokens.StopsInGroup first (production.rule (.ofIndex tokens first)) last) ∧
    (∀ builder first, ∃ last, tokens.StopsInGroup first
      ((signatureGroups (builder, .ofIndex tokens first)).1,
        (signatureGroups (builder, .ofIndex tokens first)).2.2) last) ∧
    ∀ refusal, TypeModule.read file limit source = .error refusal →
      ∃ error : GrammarError, ∃ token ∈ tokens.body,
        refusal.diagnostics = [error.diagnostic] ∧ error.IsAbout token ∧
          (error.code = "E200" ∨ error.code = "E201") ∧
          error.diagnostic.labels = [⟨token.span, ""⟩] ∧ token.lexeme ≠ .endOfInput ∧
          ¬ ("found " ++ Lexeme.endOfInput.describe).toList <:+ error.message.toList := by
  have hscanned := scanned_of_read h
  have hclosed := closesAll_of_read h
  have hgroups (builder : SignatureBuilder) (first : Nat) :
      (Cursor.ofIndex tokens first).StaysIn fun here ↦
        ((signatureGroups (builder, here)).1, (signatureGroups (builder, here)).2.2) :=
    staysIn_signatureGroups builder _
  refine ⟨⟨hclosed, fun front hfront ↦ count_le_of_isPrefix hscanned.depthBehind hfront⟩,
    fun production first ↦ TokenList.exists_stopsInGroup hclosed (staysIn_rule production _)
      (isForward_rule production _).about_current,
    fun builder first ↦ TokenList.exists_stopsInGroup hclosed (hgroups builder first)
      (isForward_signatureGroups (builder, _)).about_current,
    fun refusal hrefusal ↦ ?_⟩
  obtain ⟨error, houtcome, hdiagnostics⟩ := exists_error_of_read h hrefusal
  obtain ⟨token, hmem, habout⟩ := exists_isAbout_of_error hclosed houtcome
  have hlexeme := endsOnce_of_read h token hmem
  exact ⟨error, token, hmem, hdiagnostics, habout, error.code_cases, habout.labels_eq, hlexeme,
    habout.not_foundEnd hlexeme⟩

end

/-- A memory of no size. -/
def unsizedMemory : String := "(memory)"

/-- The tokens of a memory of no size. -/
def unsizedMemoryTokens : TokenList :=
  ⟨[⟨.opening, .single "" ⟨1, 1⟩⟩, ⟨.keyword "memory", ⟨"", ⟨1, 2⟩, ⟨1, 7⟩⟩⟩,
    ⟨.closing, .single "" ⟨1, 8⟩⟩], ⟨"", ⟨1, 9⟩, ⟨1, 8⟩⟩⟩

theorem error_before_end_of_read_unsizedMemory :
    TokenList.read "" none unsizedMemory = .ok unsizedMemoryTokens ∧
      (∃ last, unsizedMemoryTokens.StopsInGroup 1
        (Grammar.field (.ofIndex unsizedMemoryTokens 1)) last) ∧
      ∃ refusal, TypeModule.read "" none unsizedMemory = .error refusal ∧
        ∃ error : GrammarError, ∃ token ∈ unsizedMemoryTokens.body,
          refusal.diagnostics = [error.diagnostic] ∧ error.IsAbout token ∧
            token.lexeme ≠ .endOfInput := by
  have hread : TokenList.read "" none unsizedMemory = .ok unsizedMemoryTokens := by decide +kernel
  have hrefused : (TypeModule.read "" none unsizedMemory).isOk = false := by decide +kernel
  obtain ⟨-, hrules, -, herror⟩ := error_before_end_of_read hread
  cases hmodule : TypeModule.read "" none unsizedMemory with
  | ok found =>
    rw [hmodule] at hrefused
    cases hrefused
  | error refusal =>
    obtain ⟨error, token, hmem, hdiagnostics, habout, -, -, hlexeme, -⟩ := herror refusal hmodule
    exact ⟨hread, hrules .field 1, refusal, rfl, error, token, hmem, hdiagnostics, habout, hlexeme⟩

end WatTypes
