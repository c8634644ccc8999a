import WatTypes.Grammar.Derivation
import WatTypes.Rule

/-!
# Rules that read phrases

A rule moves its cursor over some tokens (`Cursor.Passes`) and stops with an answer or an error. It
reads a phrase (`Rule.Reads`) if the tokens passed are such a phrase and denote the answer, if an
error arises only where the tokens passed can still be completed to such a phrase, in particular by
each of the alternatives that the error lists (`Phrase.Continues`), and if the outcome is the same
wherever the tokens passed and the next two are the same (`Cursor.AgreesOn`). Reading is kept by
sequences (`Rule.Reads.bind`), by parentheses (`Rule.Reads.parens`) and by repetition up to the end
of a group (`Rule.Reads.untilGroupEnd`), so that each rule of the grammar is settled from its parts.
-/

set_option autoImplicit false
set_option relaxedAutoImplicit false

namespace WatTypes

/-! ### Cursors that move -/

namespace Cursor

/-- A cursor gets from one place to another by passing exactly the given tokens. -/
structure Passes (taken : List Token) (here there : Cursor) : Prop where
  /-- The tokens passed stood ahead. -/
  ahead : here.ahead = taken ++ there.ahead
  /-- The tokens passed stand behind. -/
  behind : there.behind = taken.reverse ++ here.behind
  /-- The input ends where it ended. -/
  stop : there.stop = here.stop

/-- A cursor that stays passes nothing. -/
theorem Passes.refl (here : Cursor) : Passes [] here here := ⟨rfl, rfl, rfl⟩

/-- Passing some tokens and then others is passing them all. -/
theorem Passes.trans {first second : List Token} {here middle there : Cursor}
    (hfirst : Passes first here middle) (hsecond : Passes second middle there) :
    Passes (first ++ second) here there where
  ahead := by rw [hfirst.ahead, hsecond.ahead, List.append_assoc]
  behind := by rw [hsecond.behind, hfirst.behind, List.reverse_append, List.append_assoc]
  stop := by rw [hsecond.stop, hfirst.stop]

/-- The tokens passed and the place they are passed from give the place behind them. -/
theorem Passes.eq_of_same {taken : List Token} {here first second : Cursor}
    (hfirst : Passes taken here first) (hsecond : Passes taken here second) : first = second := by
  obtain ⟨behind, ahead, stop⟩ := first
  obtain ⟨behind', ahead', stop'⟩ := second
  have hahead : ahead = ahead' := List.append_cancel_left (hfirst.ahead.symm.trans hsecond.ahead)
  have hbehind : behind = behind' := hfirst.behind.trans hsecond.behind.symm
  have hstop : stop = stop' := hfirst.stop.trans hsecond.stop.symm
  rw [hahead, hbehind, hstop]

/-- Tokens that stand ahead can be passed. -/
theorem exists_passes {taken rest : List Token} {here : Cursor} (h : here.ahead = taken ++ rest) :
    ∃ there, Passes taken here there ∧ there.ahead = rest :=
  ⟨⟨taken.reverse ++ here.behind, rest, here.stop⟩, ⟨h, rfl, rfl⟩, rfl⟩

/-- Assumes: the next token is not the end of the input. The cursor advances by passing it. -/
theorem passes_advance {here : Cursor} (h : here.current.lexeme ≠ .endOfInput) :
    Passes [here.current] here here.advance := by
  obtain ⟨behind, ahead, stop⟩ := here
  cases ahead with
  | nil => exact absurd rfl h
  | cons token rest => exact ⟨rfl, rfl, rfl⟩

/-- The first token passed is the next one. -/
theorem Passes.current_eq {token : Token} {taken : List Token} {here there : Cursor}
    (h : Passes (token :: taken) here there) : here.current = token := by
  simp [current, tokenAt, h.ahead]

/-- The second token passed is the one at distance one. -/
theorem Passes.tokenAt_one_eq {first second : Token} {taken : List Token} {here there : Cursor}
    (h : Passes (first :: second :: taken) here there) : here.tokenAt 1 = second := by
  simp [tokenAt, h.ahead]

/-- A single token passed is passed by advancing. -/
theorem Passes.advance_eq {token : Token} {here there : Cursor} (h : Passes [token] here there) :
    here.advance = there := by
  obtain ⟨behind, ahead, stop⟩ := here
  obtain ⟨behind', ahead', stop'⟩ := there
  obtain ⟨hahead, hbehind, hstop⟩ := h
  simp only [List.singleton_append, List.reverse_singleton] at hahead hbehind hstop
  subst hahead hbehind hstop
  rfl

/-- The position counts the tokens passed. -/
theorem Passes.position_eq {taken : List Token} {here there : Cursor}
    (h : Passes taken here there) : there.position = here.position + taken.length := by
  simp [position, h.behind, Nat.add_comm]

/-- A passage of several tokens can be interrupted. -/
theorem Passes.split {first second : List Token} {here there : Cursor}
    (h : Passes (first ++ second) here there) :
    ∃ middle, Passes first here middle ∧ Passes second middle there := by
  have hahead : here.ahead = first ++ (second ++ there.ahead) := by
    rw [h.ahead, List.append_assoc]
  obtain ⟨middle, hfirst, hrest⟩ := exists_passes hahead
  refine ⟨middle, hfirst, hrest, ?_, ?_⟩
  · rw [h.behind, hfirst.behind, List.reverse_append, List.append_assoc]
  · rw [h.stop, hfirst.stop]

/-- Behind the tokens passed the distances count on. -/
theorem Passes.tokenAt_eq {taken : List Token} {here there : Cursor} (h : Passes taken here there)
    (distance : Nat) : there.tokenAt distance = here.tokenAt (taken.length + distance) := by
  simp only [tokenAt, endToken, h.ahead, h.stop]
  rw [List.getElem?_append_right (Nat.le_add_right _ _), Nat.add_sub_cancel_left]

/-! ### Cursors that show the same -/

/-- Two cursors show the same tokens at all distances below a bound. -/
def AgreesOn (bound : Nat) (here other : Cursor) : Prop :=
  ∀ distance < bound, here.tokenAt distance = other.tokenAt distance

/-- Cursors that show the same up to a bound do so up to every smaller one. -/
theorem AgreesOn.mono {bound smaller : Nat} {here other : Cursor} (h : AgreesOn bound here other)
    (hle : smaller ≤ bound) : AgreesOn smaller here other := fun distance hdistance ↦
  h distance (Nat.lt_of_lt_of_le hdistance hle)

/-- A cursor shows the same as itself. -/
theorem AgreesOn.refl (bound : Nat) (here : Cursor) : AgreesOn bound here here := fun _ _ ↦ rfl

/-- Behind the same tokens two cursors show the same up to a bound that is smaller by as many. -/
theorem AgreesOn.of_passes {bound : Nat} {taken : List Token} {here other there behind : Cursor}
    (h : AgreesOn (taken.length + bound) here other) (hthere : Passes taken here there)
    (hbehind : Passes taken other behind) : AgreesOn bound there behind := by
  intro distance hdistance
  rw [hthere.tokenAt_eq, hbehind.tokenAt_eq]
  exact h _ (by omega)

section AgreesOnTwo

variable {here other : Cursor} (h : AgreesOn 2 here other)

include h

theorem AgreesOn.current_eq : other.current = here.current := (h 0 (by decide)).symm

theorem AgreesOn.shows_eq (element : Element) : other.shows 0 element = here.shows 0 element := by
  have hfirst := h 0 (by decide)
  have hsecond := h 1 (by decide)
  cases element <;> simp [shows, hfirst, hsecond]

theorem AgreesOn.opensWith_eq (word : String) :
    other.opensWith (.keyword word) = here.opensWith (.keyword word) := by
  have hsecond := h 1 (by decide)
  simp [opensWith, shows, h.current_eq, hsecond]

theorem AgreesOn.isGroupEnd_eq : other.isGroupEnd = here.isGroupEnd := by
  simp [isGroupEnd, h.current_eq]

theorem AgreesOn.isAtEnd_eq : other.isAtEnd = here.isAtEnd := by
  simp [isAtEnd, h.current_eq]

theorem AgreesOn.opensSignatureGroup_eq :
    other.opensSignatureGroup = here.opensSignatureGroup := by
  simp [opensSignatureGroup, h.opensWith_eq]

theorem AgreesOn.unexpected_eq (expected : List String) :
    other.unexpected expected = here.unexpected expected := by
  simp [unexpected, h.current_eq]

end AgreesOnTwo

end Cursor

/-! ### Phrases in sequence -/

namespace Grammar.Phrase

variable {α β : Type}

/-- A phrase, and behind it one that depends on what the first denotes. -/
def andThen (first : Phrase α) (next : α → Phrase β) : Phrase β := fun tokens value ↦
  ∃ left right middle, tokens = left ++ right ∧ first left middle ∧ next middle right value

/-- The phrase of no tokens. -/
def nothing (value : α) : Phrase α := fun tokens found ↦ tokens = [] ∧ found = value

/-- Phrases one after the other, each of which takes a state to the next one. -/
inductive Chain {σ : Type} (step : σ → Phrase σ) : σ → Phrase σ
  /-- No phrase. -/
  | nil {start : σ} : Chain step start [] start
  /-- A phrase, and those behind it. -/
  | cons {start next stop : σ} {first others : List Token} :
    step start first next → Chain step next others stop → Chain step start (first ++ others) stop

/-- Chains of phrases that each add what they denote to a state are any number of these phrases. -/
theorem chain_iff_exists_many {σ : Type} {phrase : Phrase α} {step : σ → α → σ} {start stop : σ}
    {tokens : List Token} :
    Chain (fun state tokens next ↦ ∃ value, phrase tokens value ∧ next = step state value)
      start tokens stop ↔
        ∃ values, Many phrase tokens values ∧ stop = values.foldl step start := by
  constructor
  · intro h
    induction h with
    | nil => exact ⟨[], .nil, rfl⟩
    | cons hfirst _ ih =>
      obtain ⟨value, hvalue, rfl⟩ := hfirst
      obtain ⟨values, hvalues, rfl⟩ := ih
      exact ⟨value :: values, .cons hvalue hvalues, rfl⟩
  · rintro ⟨values, hvalues, rfl⟩
    induction hvalues generalizing start with
    | nil => exact .nil
    | cons hfirst _ ih => exact .cons ⟨_, hfirst, rfl⟩ ih

/-- A single token is no run of no tokens. -/
theorem not_single_nil {meaning : Token → Option α} (value : α) : ¬ single meaning [] value := by
  rintro ⟨token, h, -⟩
  cases h

/-- Parentheses are at least two tokens. -/
theorem not_parens_nil {phrase : Phrase α} (value : α) : ¬ Phrase.parens phrase [] value := by
  rintro ⟨opening, closing, inner, h, -⟩
  cases h

end Grammar.Phrase

/-! ### Alternatives -/

/-- A token at no particular place. -/
def Grammar.bareToken (lexeme : Lexeme) : Token := ⟨lexeme, .single "" .first⟩

/-- A token is what a message calls by a name: it is described so, or it is of the kind named. -/
inductive Token.Meets (token : Token) : String → Prop
  /-- By its description; integers are told by their kind alone. -/
  | described : token.unsigned? = none → Meets token token.lexeme.describe
  /-- As an unsigned integer. -/
  | unsigned : token.unsigned?.isSome → Meets token (Element.display .unsigned)
  /-- As an identifier. -/
  | id : token.id?.isSome → Meets token (Element.display .id)
  /-- As a string. -/
  | string : token.string?.isSome → Meets token (Element.display .string)

/-- The alternatives that an error lists. -/
def GrammarError.alternatives : GrammarError → List String
  | .unexpected expected _ _ => expected
  | .paramAfterResult _ => []

/-- Some tokens start a phrase, and so do these tokens with any of the named alternatives behind
them. -/
structure Grammar.Phrase.Continues {α : Type} (phrase : Phrase α) (taken : List Token)
    (names : List String) : Prop where
  /-- There is a completion. -/
  completed : ∃ more value, phrase (taken ++ more) value
  /-- There is a completion with each alternative. -/
  offered : ∀ name ∈ names, ∃ token more value,
    token.Meets name ∧ phrase (taken ++ token :: more) value

/-- Completions are completions of a wider phrase. -/
theorem Grammar.Phrase.Continues.mono {α β : Type} {phrase : Phrase α} {wider : Phrase β}
    {taken : List Token} (before : List Token) {names : List String}
    (h : phrase.Continues taken names)
    (hwider : ∀ tokens value, phrase tokens value →
      ∃ more found, wider (before ++ tokens ++ more) found) :
    wider.Continues (before ++ taken) names where
  completed := by
    obtain ⟨more, value, hphrase⟩ := h.completed
    obtain ⟨others, found, hfound⟩ := hwider _ value hphrase
    exact ⟨more ++ others, found, by simpa using hfound⟩
  offered := by
    intro name hname
    obtain ⟨token, more, value, hmeets, hphrase⟩ := h.offered name hname
    obtain ⟨others, found, hfound⟩ := hwider _ value hphrase
    exact ⟨token, more ++ others, found, hmeets, by simpa using hfound⟩

/-! ### Reading -/

namespace Rule

open Grammar Phrase

variable {α β : Type}

/-- What a rule passes is a phrase that denotes the answer, or, where it fails, the start of such a
phrase that the listed alternatives continue. -/
def Outcome (phrase : Phrase α) (taken : List Token) : Except GrammarError α → Prop
  | .ok value => phrase taken value
  | .error error => phrase.Continues taken error.alternatives

/-- A rule reads a phrase at a place: its outcome is one for the tokens it passes, and it is the
same wherever the tokens passed and two more are the same. -/
def ReadsAt (rule : Rule Cursor α) (phrase : Phrase α) (here : Cursor) : Prop :=
  ∃ taken, Cursor.Passes taken here (rule here).2 ∧ Outcome phrase taken (rule here).1 ∧
    ∀ other, here.AgreesOn (taken.length + 2) other →
      ∃ there, Cursor.Passes taken other there ∧ rule other = ((rule here).1, there)

/-- A rule reads a phrase from wherever it starts. -/
def Reads (rule : Rule Cursor α) (phrase : Phrase α) : Prop := ∀ here, ReadsAt rule phrase here

/-- An outcome for a phrase is one for every wider phrase. -/
theorem Outcome.mono {phrase wider : Phrase α} {taken : List Token}
    {outcome : Except GrammarError α} (h : Outcome phrase taken outcome)
    (hwider : ∀ tokens value, phrase tokens value → wider tokens value) :
    Outcome wider taken outcome := by
  cases outcome with
  | ok value => exact hwider taken value h
  | error error =>
    exact Continues.mono [] h fun tokens value hphrase ↦
      ⟨[], value, by simpa using hwider tokens value hphrase⟩

/-- A rule that reads a phrase at a place reads every wider one there. -/
theorem ReadsAt.mono {rule : Rule Cursor α} {phrase wider : Phrase α} {here : Cursor}
    (h : ReadsAt rule phrase here)
    (hwider : ∀ tokens value, phrase tokens value → wider tokens value) :
    ReadsAt rule wider here := by
  obtain ⟨taken, hpasses, houtcome, hlocal⟩ := h
  exact ⟨taken, hpasses, houtcome.mono hwider, hlocal⟩

/-- A rule that reads a phrase reads every wider one. -/
theorem Reads.mono {rule : Rule Cursor α} {phrase wider : Phrase α} (h : Reads rule phrase)
    (hwider : ∀ tokens value, phrase tokens value → wider tokens value) : Reads rule wider :=
  fun here ↦ (h here).mono hwider

/-- A rule that does what a reading rule does, wherever the next two tokens are the same, reads the
phrase. -/
theorem ReadsAt.of_eq {rule other : Rule Cursor α} {phrase : Phrase α} {here : Cursor}
    (h : ReadsAt other phrase here)
    (heq : ∀ there, here.AgreesOn 2 there → rule there = other there) :
    ReadsAt rule phrase here := by
  obtain ⟨taken, hpasses, houtcome, hlocal⟩ := h
  have hhere := heq here (.refl 2 here)
  refine ⟨taken, by rwa [hhere], by rwa [hhere], fun there hagrees ↦ ?_⟩
  rw [hhere, heq there (hagrees.mono (by omega))]
  exact hlocal there hagrees

/-- Assumes: an error told by the next two tokens, and alternatives that start the phrase. Failing
with the error reads the phrase. -/
theorem ReadsAt.fail (error : Cursor → GrammarError) {phrase : Phrase α} {here : Cursor}
    (hlocal : ∀ other, here.AgreesOn 2 other → error other = error here)
    (hcontinues : phrase.Continues [] (error here).alternatives) :
    ReadsAt (fun there ↦ (.error (error there), there)) phrase here := by
  refine ⟨[], .refl here, hcontinues, fun other hagrees ↦ ⟨other, .refl other, ?_⟩⟩
  simp only [hlocal other hagrees]

/-- A phrase that some rule reads is not empty: at the end of the input the rule answers, or fails
and shows a completion. -/
theorem Reads.exists_phrase {rule : Rule Cursor α} {phrase : Phrase α} (h : Reads rule phrase)
    (stop : Span) : ∃ tokens value, phrase tokens value := by
  obtain ⟨taken, -, houtcome, -⟩ := h ⟨[], [], stop⟩
  cases hrule : (rule ⟨[], [], stop⟩).1 with
  | ok value =>
    rw [hrule] at houtcome
    exact ⟨taken, value, houtcome⟩
  | error error =>
    rw [hrule] at houtcome
    obtain ⟨more, value, hphrase⟩ := houtcome.completed
    exact ⟨taken ++ more, value, hphrase⟩

/-- Answering without reading reads nothing. -/
theorem Reads.pure (value : α) : Reads (Pure.pure value) (nothing value) := fun here ↦
  ⟨[], .refl here, ⟨rfl, rfl⟩, fun other _ ↦ ⟨other, .refl other, rfl⟩⟩

/-- Assumes: a rule that reads a phrase at a place, a rule behind it that reads another phrase from
where the first one stops, and that there always is such a phrase. The two in sequence read the
phrases in sequence. -/
theorem ReadsAt.bind {first : Rule Cursor α} {next : α → Rule Cursor β} {phrase : Phrase α}
    {following : α → Phrase β} {here : Cursor} (hfirst : ReadsAt first phrase here)
    (hnext : ∀ value there, first here = (.ok value, there) →
      ReadsAt (next value) (following value) there)
    (hsome : ∀ value, ∃ tokens found, following value tokens found) :
    ReadsAt (first >>= next) (andThen phrase following) here := by
  obtain ⟨left, hleft, houtcome, hlocal⟩ := hfirst
  rcases hrun : first here with ⟨outcome, middle⟩
  rw [hrun] at hleft houtcome hlocal
  rw [ReadsAt, Step.bind_apply, hrun]
  cases outcome with
  | ok value =>
    obtain ⟨right, hright, hlast, hbehind⟩ := hnext value middle hrun
    refine ⟨left ++ right, hleft.trans hright, ?_, fun other hagrees ↦ ?_⟩
    · change Outcome _ _ (next value middle).1
      cases hanswer : (next value middle).1 with
      | ok found =>
        rw [hanswer] at hlast
        exact ⟨left, right, value, rfl, houtcome, hlast⟩
      | error error =>
        rw [hanswer] at hlast
        exact Continues.mono left hlast fun tokens found hfound ↦
          ⟨[], found, left, tokens, value, by simp, houtcome, hfound⟩
    · rw [List.length_append, Nat.add_assoc] at hagrees
      obtain ⟨there, hthere, hother⟩ := hlocal other (hagrees.mono (by omega))
      obtain ⟨stop, hstop, hanswer⟩ := hbehind there (hagrees.of_passes hleft hthere)
      refine ⟨stop, hthere.trans hstop, ?_⟩
      rw [Step.bind_apply, hother]
      exact hanswer
  | error error =>
    refine ⟨left, hleft, Continues.mono [] houtcome fun tokens value hvalue ↦ ?_,
      fun other hagrees ↦ ?_⟩
    · obtain ⟨more, found, hfound⟩ := hsome value
      exact ⟨more, found, tokens, more, value, by simp, hvalue, hfound⟩
    · obtain ⟨there, hthere, hother⟩ := hlocal other hagrees
      refine ⟨there, hthere, ?_⟩
      rw [Step.bind_apply, hother]

/-- Rules in sequence read phrases in sequence. -/
theorem Reads.bind {first : Rule Cursor α} {next : α → Rule Cursor β} {phrase : Phrase α}
    {following : α → Phrase β} (hfirst : Reads first phrase)
    (hnext : ∀ value, Reads (next value) (following value)) :
    Reads (first >>= next) (andThen phrase following) := fun here ↦
  (hfirst here).bind (fun value there _ ↦ hnext value there) fun value ↦
    (hnext value).exists_phrase here.stop

/-- Answering with a function of an answer reads the phrase with a meaning made from its own. -/
theorem ReadsAt.map {rule : Rule Cursor α} {phrase : Phrase α} {here : Cursor} (meaning : α → β)
    (h : ReadsAt rule phrase here) :
    ReadsAt (rule >>= fun value ↦ Pure.pure (meaning value)) (Phrase.map meaning phrase) here := by
  refine (h.bind (fun value there _ ↦ Reads.pure (meaning value) there)
    fun value ↦ ⟨[], _, rfl, rfl⟩).mono ?_
  rintro tokens value ⟨left, right, inner, rfl, hinner, rfl, rfl⟩
  exact ⟨inner, by simpa using hinner, rfl⟩

/-- Answering with a function of an answer, from wherever the rule starts. -/
theorem Reads.map {rule : Rule Cursor α} {phrase : Phrase α} (meaning : α → β)
    (h : Reads rule phrase) :
    Reads (rule >>= fun value ↦ Pure.pure (meaning value)) (Phrase.map meaning phrase) :=
  fun here ↦ (h here).map meaning

/-- Two rules whose answers are put together read two phrases, one after the other. -/
theorem Reads.both {γ : Type} {first : Rule Cursor α} {second : Rule Cursor β}
    {phrase : Phrase α} {following : Phrase β} (meaning : α → β → γ) (hfirst : Reads first phrase)
    (hsecond : Reads second following) :
    Reads (first >>= fun left ↦ second >>= fun right ↦ Pure.pure (meaning left right))
      (Phrase.map (fun pair ↦ meaning pair.1 pair.2) (Phrase.both phrase following)) := by
  refine (hfirst.bind fun left ↦ hsecond.map (meaning left)).mono ?_
  rintro tokens value ⟨left, right, before, rfl, hbefore, behind, hbehind, rfl⟩
  exact ⟨(before, behind), ⟨left, right, rfl, hbefore, hbehind⟩, rfl⟩

/-! ### Single tokens and parentheses -/

/-- Assumes: the end of the input has no meaning, and each alternative is met by a token that has
one. The rule of a single token reads that token. -/
theorem Reads.token {expected : List String} {meaning : Token → Option α}
    (hend : ∀ stop, meaning ⟨.endOfInput, stop⟩ = none)
    (hsome : ∃ token value, meaning token = some value)
    (hnames : ∀ name ∈ expected, ∃ token value, token.Meets name ∧ meaning token = some value) :
    Reads (Rule.token expected meaning) (single meaning) := by
  intro here
  cases hmeaning : meaning here.current with
  | none =>
    rw [ReadsAt, token_of_none hmeaning]
    refine ⟨[], .refl here, ⟨?_, fun name hname ↦ ?_⟩, fun other hagrees ↦ ⟨other, .refl other, ?_⟩⟩
    · obtain ⟨token, value, hvalue⟩ := hsome
      exact ⟨[token], value, token, rfl, hvalue⟩
    · obtain ⟨token, value, hmeets, hvalue⟩ := hnames name hname
      exact ⟨token, [], value, hmeets, token, rfl, hvalue⟩
    · rw [token_of_none (by rw [hagrees.current_eq, hmeaning]), hagrees.unexpected_eq]
  | some value =>
    have hlexeme : here.current.lexeme ≠ .endOfInput := by
      intro hlexeme
      have hcurrent : here.current = ⟨.endOfInput, here.current.span⟩ := by rw [← hlexeme]
      rw [hcurrent, hend] at hmeaning
      cases hmeaning
    rw [ReadsAt, token_of_some hmeaning]
    refine ⟨[here.current], Cursor.passes_advance hlexeme, ⟨here.current, rfl, hmeaning⟩,
      fun other hagrees ↦ ⟨other.advance, ?_, ?_⟩⟩
    · have htwo : here.AgreesOn 2 other := hagrees.mono (by omega)
      have hcurrent := htwo.current_eq
      rw [← hcurrent] at hlexeme ⊢
      exact Cursor.passes_advance hlexeme
    · exact token_of_some (by rw [(hagrees.mono (by omega)).current_eq, hmeaning])

/-- Assumes: no integer, and not the end of the input. The rule of a lexeme reads it. -/
theorem Reads.lexeme (lexeme : Lexeme) (hlexeme : lexeme ≠ .endOfInput)
    (hnumber : (bareToken lexeme).unsigned? = none) :
    Reads (Rule.token [lexeme.describe] fun found ↦ if found.lexeme = lexeme then some () else none)
      (single fun found ↦ if found.lexeme = lexeme then some () else none) := by
  refine Reads.token (fun stop ↦ if_neg hlexeme.symm)
    ⟨bareToken lexeme, (), if_pos rfl⟩ fun name hname ↦ ?_
  rw [List.mem_singleton.mp hname]
  exact ⟨bareToken lexeme, (), .described hnumber, if_pos rfl⟩

/-- The rule of a reserved word reads it. -/
theorem Reads.keyword (word : String) : Reads (Rule.keyword word) (Phrase.word word) := by
  refine Reads.token (fun stop ↦ rfl)
    ⟨bareToken (.keyword word), .single "" .first, if_pos rfl⟩ fun name hname ↦ ?_
  rw [List.mem_singleton.mp hname]
  exact ⟨bareToken (.keyword word), .single "" .first, .described rfl, if_pos rfl⟩

/-- A rule inside of parentheses reads the phrase inside of parentheses. -/
theorem Reads.parens {rule : Rule Cursor α} {phrase : Phrase α} (h : Reads rule phrase) :
    Reads (Rule.parens rule) (Phrase.parens phrase) := by
  have hopening := Reads.lexeme .opening (by decide) rfl
  have hclosing := Reads.lexeme .closing (by decide) rfl
  refine (hopening.bind fun _ ↦ h.bind fun value ↦ hclosing.bind fun _ ↦ Reads.pure value).mono ?_
  rintro tokens value ⟨_, _, _, rfl, ⟨opening, rfl, hopen⟩, inner, _, found, rfl, hinner,
    _, _, _, rfl, ⟨closing, rfl, hclose⟩, rfl, rfl⟩
  exact ⟨opening, closing, inner, by simp, (Option.ite_none_right_eq_some.mp hopen).1,
    (Option.ite_none_right_eq_some.mp hclose).1, hinner⟩

/-! ### Repetition -/

/-- Assumes: a phrase that holds at least one token. A rule that reads it and answers has come
nearer to the end of the input. -/
theorem Reads.length_ahead_lt {rule : Rule Cursor α} {phrase : Phrase α} (h : Reads rule phrase)
    (hnonempty : ∀ value, ¬ phrase [] value) {here there : Cursor} {value : α}
    (hrun : rule here = (.ok value, there)) : there.ahead.length < here.ahead.length := by
  obtain ⟨taken, hpasses, houtcome, -⟩ := h here
  rw [hrun] at hpasses houtcome
  cases taken with
  | nil => exact absurd houtcome (hnonempty value)
  | cons token rest =>
    rw [hpasses.ahead]
    simp only [List.cons_append, List.length_cons, List.length_append]
    omega

/-- Assumes: a phrase that holds at least one token. Repeating its rule up to the end of the group
reads any number of such phrases. -/
theorem Reads.untilGroupEnd {rule : Rule Cursor α} {phrase : Phrase α} (h : Reads rule phrase)
    (hnonempty : ∀ value, ¬ phrase [] value) :
    Reads (Rule.untilGroupEnd rule) (Many phrase) := by
  intro here
  induction hlength : here.ahead.length using Nat.strongRecOn generalizing here with
  | ind length ih =>
    have heq (there : Cursor) : Rule.untilGroupEnd rule there = _ :=
      Step.whileMore_eq_bind fun answer behind hrun ↦ h.length_ahead_lt hnonempty hrun
    cases hmore : here.isGroupEnd with
    | true =>
      refine ((Reads.pure []).mono ?_ here).of_eq fun there hagrees ↦ ?_
      · rintro tokens values ⟨rfl, rfl⟩
        exact .nil
      · rw [heq, hagrees.isGroupEnd_eq, hmore]
        rfl
    | false =>
      have hread : ReadsAt _ (andThen phrase fun value ↦ Phrase.map (value :: ·) (Many phrase))
          here := (h here).bind
        (fun value there hrun ↦
          (ih _ (hlength ▸ h.length_ahead_lt hnonempty hrun) there rfl).map (value :: ·))
        fun value ↦ ⟨[], [value], [], .nil, rfl⟩
      refine (hread.mono ?_).of_eq fun there hagrees ↦ ?_
      · rintro tokens values ⟨left, right, value, rfl, hvalue, others, hothers, rfl⟩
        exact .cons hvalue hothers
      · rw [heq, hagrees.isGroupEnd_eq, hmore]
        rfl

end Rule

end WatTypes
