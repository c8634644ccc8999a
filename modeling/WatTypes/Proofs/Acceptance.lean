import WatTypes.Proofs.Reading

/-!
# Rules that accept phrases

A rule accepts a phrase (`Rule.Accepts`) if it answers what the phrase denotes wherever the phrase
stands ahead, as long as what follows the phrase does not look like more of it. What may follow is
a condition on the place behind the phrase, and what a phrase starts with is known from the phrase
(`Grammar.Phrase.Starts`), so that the condition on one phrase is met by the next one. Acceptance is
kept by sequences, by parentheses, by elements that may be missing and by repetition.
-/

set_option autoImplicit false
set_option relaxedAutoImplicit false

namespace WatTypes

/-- Where a phrase stands ahead, the place has a property. -/
def Grammar.Phrase.Starts {α : Type} (phrase : Phrase α) (start : Cursor → Prop) : Prop :=
  ∀ ⦃taken value here there⦄, phrase taken value → Cursor.Passes taken here there → start here

namespace Rule

open Grammar Phrase

variable {α β γ : Type}

/-- Wherever a phrase stands ahead of a place that has a property, the rule passes the phrase and
answers what it denotes. -/
def Accepts (rule : Rule Cursor α) (phrase : Phrase α) (follow : Cursor → Prop) : Prop :=
  ∀ ⦃taken value here there⦄, phrase taken value → Cursor.Passes taken here there → follow there →
    rule here = (.ok value, there)

/-- Whatever follows. -/
def anything (_ : Cursor) : Prop := True

/-- A rule that accepts phrases accepts some of them. -/
theorem Accepts.narrow {rule : Rule Cursor α} {phrase narrower : Phrase α} {follow : Cursor → Prop}
    (h : Accepts rule phrase follow)
    (hphrase : ∀ tokens value, narrower tokens value → phrase tokens value) :
    Accepts rule narrower follow :=
  fun _ _ _ _ hnarrower ↦ h (hphrase _ _ hnarrower)

/-- A rule that accepts phrases before some places accepts them before fewer. -/
theorem Accepts.before {rule : Rule Cursor α} {phrase : Phrase α} {follow stricter : Cursor → Prop}
    (h : Accepts rule phrase follow) (hfollow : ∀ there, stricter there → follow there) :
    Accepts rule phrase stricter :=
  fun _ _ _ _ hphrase hpasses hstricter ↦ h hphrase hpasses (hfollow _ hstricter)

/-- Assumes: a phrase behind which the first rule may stop. Rules in sequence accept phrases in
sequence. -/
theorem Accepts.bind {first : Rule Cursor α} {next : α → Rule Cursor β} {phrase : Phrase α}
    {following : α → Phrase β} {between follow : Cursor → Prop}
    (hfirst : Accepts first phrase between)
    (hnext : ∀ value, Accepts (next value) (following value) follow)
    (hbetween : ∀ value ⦃taken found here there⦄, following value taken found →
      Cursor.Passes taken here there → follow there → between here) :
    Accepts (first >>= next) (andThen phrase following) follow := by
  rintro _ found here there ⟨left, right, value, rfl, hphrase, hfollowing⟩ hpasses hfollow
  obtain ⟨middle, hleft, hright⟩ := hpasses.split
  rw [Step.bind_apply, hfirst hphrase hleft (hbetween value hfollowing hright hfollow)]
  exact hnext value hfollowing hright hfollow

/-- A rule that accepts a phrase whatever follows does so before some places. -/
theorem Accepts.anywhere {rule : Rule Cursor α} {phrase : Phrase α} {follow : Cursor → Prop}
    (h : Accepts rule phrase anything) : Accepts rule phrase follow :=
  h.before fun _ _ ↦ trivial

/-- Assumes: a first rule that accepts its phrase whatever follows. Rules in sequence accept phrases
in sequence. -/
theorem Accepts.bind_anywhere {first : Rule Cursor α} {next : α → Rule Cursor β} {phrase : Phrase α}
    {following : α → Phrase β} {follow : Cursor → Prop} (hfirst : Accepts first phrase anything)
    (hnext : ∀ value, Accepts (next value) (following value) follow) :
    Accepts (first >>= next) (andThen phrase following) follow :=
  hfirst.bind hnext fun _ _ _ _ _ _ _ _ ↦ trivial

/-- Answering with a function of an answer accepts the phrase with a meaning made from its own. -/
theorem Accepts.map {rule : Rule Cursor α} {phrase : Phrase α} {follow : Cursor → Prop}
    (meaning : α → β) (h : Accepts rule phrase follow) :
    Accepts (rule >>= fun value ↦ pure (meaning value)) (Phrase.map meaning phrase) follow := by
  rintro taken _ here there ⟨value, hvalue, rfl⟩ hpasses hfollow
  rw [Step.bind_apply, h hvalue hpasses hfollow]
  rfl

/-- Assumes: a second phrase behind which the first rule may stop. Two rules whose answers are put
together accept two phrases, one after the other. -/
theorem Accepts.both {first : Rule Cursor α} {second : Rule Cursor β} {phrase : Phrase α}
    {following : Phrase β} {between follow : Cursor → Prop} (meaning : α → β → γ)
    (hfirst : Accepts first phrase between) (hsecond : Accepts second following follow)
    (hbetween : ∀ ⦃taken found here there⦄, following taken found →
      Cursor.Passes taken here there → follow there → between here) :
    Accepts (first >>= fun left ↦ second >>= fun right ↦ pure (meaning left right))
      (Phrase.map (fun pair ↦ meaning pair.1 pair.2) (Phrase.both phrase following)) follow := by
  rintro _ _ here there ⟨⟨left, right⟩, ⟨before, behind, rfl, hbefore, hbehind⟩, rfl⟩ hpasses
    hfollow
  obtain ⟨middle, hleft, hright⟩ := hpasses.split
  rw [Step.bind_apply, hfirst hbefore hleft (hbetween hbehind hright hfollow)]
  exact (hsecond.map (meaning left)) ⟨right, hbehind, rfl⟩ hright hfollow

/-- Assumes: a first rule that accepts its phrase whatever follows. Two rules whose answers are put
together accept two phrases, one after the other. -/
theorem Accepts.both_anywhere {first : Rule Cursor α} {second : Rule Cursor β} {phrase : Phrase α}
    {following : Phrase β} {follow : Cursor → Prop} (meaning : α → β → γ)
    (hfirst : Accepts first phrase anything) (hsecond : Accepts second following follow) :
    Accepts (first >>= fun left ↦ second >>= fun right ↦ pure (meaning left right))
      (Phrase.map (fun pair ↦ meaning pair.1 pair.2) (Phrase.both phrase following)) follow :=
  hfirst.both meaning hsecond fun _ _ _ _ _ _ _ ↦ trivial

/-- A single token starts with itself. -/
theorem starts_single (meaning : Token → Option α) :
    Starts (single meaning) fun here ↦ (meaning here.current).isSome := by
  rintro _ value here there ⟨token, rfl, hmeaning⟩ hpasses
  rw [hpasses.current_eq, hmeaning]
  rfl

/-- Two phrases, of which the first may be missing, start as both of them do. -/
theorem Starts.optional_both {phrase : Phrase α} {following : Phrase β} {start : Cursor → Prop}
    (hphrase : Starts phrase start) (hfollowing : Starts following start) :
    Starts (Phrase.both (Phrase.optional phrase) following) start := by
  rintro _ ⟨_ | present, found⟩ here there ⟨left, right, rfl, hleft, hright⟩ hpasses
  · cases hleft
    exact hfollowing hright hpasses
  · obtain ⟨middle, hbefore, -⟩ := hpasses.split
    exact hphrase hleft hbefore

/-- The rule of a single token accepts it. -/
theorem accepts_token (expected : List String) (meaning : Token → Option α) :
    Accepts (token expected meaning) (single meaning) anything := by
  rintro _ value here there ⟨found, rfl, hmeaning⟩ hpasses -
  rw [← hpasses.current_eq] at hmeaning
  rw [token_of_some hmeaning, hpasses.advance_eq]

/-- The rule of a reserved word accepts it. -/
theorem accepts_keyword (text : String) : Accepts (keyword text) (word text) anything :=
  accepts_token _ _

/-- Parentheses start with an opening one. -/
theorem starts_parens (phrase : Phrase α) :
    Starts (Phrase.parens phrase) fun here ↦ here.current.lexeme = .opening := by
  rintro _ value here there ⟨opening, closing, inner, rfl, hopening, -⟩ hpasses
  rw [List.cons_append] at hpasses
  rw [hpasses.current_eq, hopening]

/-- A rule that may stop before a closing parenthesis accepts its phrase inside of parentheses. -/
theorem Accepts.parens {rule : Rule Cursor α} {phrase : Phrase α}
    (h : Accepts rule phrase fun there ↦ there.current.lexeme = .closing) :
    Accepts (parens rule) (Phrase.parens phrase) anything := by
  rintro _ value here there ⟨opening, closing, inner, rfl, hopening, hclosing, hinner⟩ hpasses -
  rw [List.cons_append, ← List.singleton_append] at hpasses
  obtain ⟨inside, hbefore, hbehind⟩ := hpasses.split
  obtain ⟨stop, hmiddle, hafter⟩ := hbehind.split
  have hopen : Rule.opening here = (.ok (), inside) := by
    rw [← hbefore.advance_eq]
    exact token_of_some (by simp [hbefore.current_eq, hopening])
  have hstop : stop.current.lexeme = .closing := by rw [hafter.current_eq, hclosing]
  have hclose : Rule.closing stop = (.ok (), there) := by
    rw [← hafter.advance_eq]
    exact token_of_some (by simp [hstop])
  simp only [Rule.parens, Step.bind_apply, hopen, h hinner hmiddle hstop, hclose]
  rfl

/-- Assumes: a rule that accepts an element, and the element shows where it stands. Reading the
element if it shows accepts it, or nothing where it does not show behind. -/
theorem accepts_readOptional {element : Element} {phrase : Phrase element.Value}
    (h : Accepts element.read phrase anything)
    (hstarts : Starts phrase fun here ↦ here.shows 0 element = true) :
    Accepts element.readOptional (Phrase.optional phrase) fun there ↦
      there.shows 0 element = false := by
  rintro taken (_ | value) here there hphrase hpasses hfollow
  · cases hphrase
    rw [hpasses.eq_of_same (.refl here)] at hfollow ⊢
    simp [Element.readOptional, hfollow]
  · have hvalue : phrase taken value := hphrase
    simp [Element.readOptional, hstarts hvalue hpasses, h hvalue hpasses trivial]

/-- A place behind a phrase of at least one token has fewer tokens ahead. -/
theorem length_ahead_lt_of_passes {phrase : Phrase α} (hnonempty : ∀ value, ¬ phrase [] value)
    {taken : List Token} {value : α} {here there : Cursor} (hphrase : phrase taken value)
    (hpasses : Cursor.Passes taken here there) : there.ahead.length < here.ahead.length := by
  cases taken with
  | nil => exact absurd hphrase (hnonempty value)
  | cons token rest =>
    rw [hpasses.ahead]
    simp only [List.cons_append, List.length_cons, List.length_append]
    omega

/-- Assumes: a rule that accepts a phrase of at least one token that does not start at the end of a
group. Repeating the rule accepts any number of such phrases before the end of a group. -/
theorem Accepts.untilGroupEnd {rule : Rule Cursor α} {phrase : Phrase α}
    (h : Accepts rule phrase anything)
    (hstarts : Starts phrase fun here ↦ here.isGroupEnd = false)
    (hnonempty : ∀ value, ¬ phrase [] value) :
    Accepts (untilGroupEnd rule) (Many phrase) fun there ↦ there.isGroupEnd = true := by
  intro taken values here there hmany
  induction hmany generalizing here with
  | nil =>
    intro hpasses hfollow
    rw [hpasses.eq_of_same (.refl here)] at hfollow ⊢
    exact Step.whileMore_of_not_more (by simp [hfollow])
  | cons hfirst hothers ih =>
    intro hpasses hfollow
    obtain ⟨middle, hleft, hright⟩ := hpasses.split
    exact Step.whileMore_of_more (by simp [hstarts hfirst hleft]) (h hfirst hleft trivial)
      (length_ahead_lt_of_passes hnonempty hfirst hleft) (ih hright hfollow)

end Rule

end WatTypes
