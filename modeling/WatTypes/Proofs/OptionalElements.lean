import Mathlib.Control.Monad.Basic
import WatTypes.Lexeme.Scan
import WatTypes.Proofs.Acceptance.Types

/-!
# Elements that may be missing

Whether an element shows is told by one token, or by two for a display name. An element that may be
missing is passed over where it does not show, and is read where it does. Every element but one is
a single token, so that what shows is there as a whole. A display name is four tokens, of which the
last two are not looked at: where it shows but is not there as a whole it breaks off
(`Cursor.BreaksOff`), and reading it fails on the first token that does not belong to it.

So reading an element that may be missing comes to one of three (`Element.OptionalOutcome`). The
answer is nothing if and only if the element does not show, the cursor staying where it is; it is
what the element denotes, from behind the whole of it, if and only if the element shows and is no
display name that breaks off; and there is no other error (`readOptional_outcomes`).
-/

set_option autoImplicit false
set_option relaxedAutoImplicit false

namespace WatTypes

open Grammar Phrase Rule

/-! ### Elements that stand as a whole -/

namespace Element

/-- The tokens of an element, and what they denote. -/
def phrase : (element : Element) → Phrase element.Value
  | .keyword text => word text
  | .unsigned => Derivation.unsigned
  | .id => Derivation.id
  | .string => single Token.string?
  | .displayName => Derivation.displayName
  | .index => Derivation.index

/-- Every element other than a display name is a token with a meaning, and shows where one is. -/
theorem exists_meaning {element : Element} (h : element ≠ .displayName) :
    ∃ (expected : List String) (meaning : Token → Option element.Value),
      element.read = Rule.token expected meaning ∧ element.phrase = single meaning ∧
        ∀ here : Cursor, here.shows 0 element = (meaning here.current).isSome := by
  cases element with
  | displayName => exact absurd rfl h
  | _ => exact ⟨_, _, rfl, rfl, fun _ ↦ rfl⟩

/-- An element shows where it stands as a whole. -/
theorem starts_phrase (element : Element) :
    Starts element.phrase fun here ↦ here.shows 0 element = true := by
  by_cases h : element = .displayName
  · subst h
    exact starts_displayName
  · obtain ⟨expected, meaning, -, hphrase, hmeaning⟩ := exists_meaning h
    simp only [hphrase, hmeaning]
    exact starts_single meaning

/-- Reading an element accepts it. -/
theorem accepts_read (element : Element) : Rule.Accepts element.read element.phrase anything := by
  by_cases h : element = .displayName
  · subst h
    exact accepts_displayName
  · obtain ⟨expected, meaning, hread, hphrase, -⟩ := exists_meaning h
    rw [hread, hphrase]
    exact accepts_token expected meaning

/-- An element of one token that shows is there as a whole. -/
theorem exists_phrase_of_shows {element : Element} (h : element ≠ .displayName) {here : Cursor}
    (hshows : here.shows 0 element = true) :
    ∃ taken value there, element.phrase taken value ∧ Cursor.Passes taken here there := by
  obtain ⟨expected, meaning, -, hphrase, hmeaning⟩ := exists_meaning h
  obtain ⟨value, hvalue⟩ := Option.isSome_iff_exists.mp (hmeaning here ▸ hshows)
  have hinside : here.current.lexeme ≠ .endOfInput := by
    have hgroup := Cursor.isGroupEnd_of_shows hshows
    simp only [Cursor.isGroupEnd, Bool.or_eq_false_iff, beq_eq_false_iff_ne] at hgroup
    exact hgroup.2
  refine ⟨[here.current], value, here.advance, ?_, Cursor.passes_advance hinside⟩
  rw [hphrase]
  exact ⟨here.current, rfl, hvalue⟩

end Element

/-! ### Display names -/

namespace Cursor

variable {here there other : Cursor} {expected alternatives : List String}

/-- A display name that shows at a cursor breaks off at another one, where something else is
expected than stands there: its text is no string, or no closing parenthesis follows its text. -/
inductive BreaksOff (here : Cursor) : List String → Cursor → Prop
  /-- There is no text. -/
  | text {there : Cursor} :
    Passes [here.current, here.tokenAt 1] here there → (here.tokenAt 2).string? = none →
      BreaksOff here [Element.display .string] there
  /-- There is a text, and it is not the last. -/
  | closing {there : Cursor} {text : String} :
    Passes [here.current, here.tokenAt 1, here.tokenAt 2] here there →
      (here.tokenAt 2).string? = some text → (here.tokenAt 3).lexeme ≠ .closing →
        BreaksOff here [Lexeme.closing.describe] there

/-- What breaks off does so at one place, and for one reason. -/
theorem BreaksOff.unique (h : here.BreaksOff expected there)
    (hother : here.BreaksOff alternatives other) : expected = alternatives ∧ there = other := by
  cases h with
  | text hpasses hnone =>
    cases hother with
    | text hpasses' _ => exact ⟨rfl, hpasses.eq_of_same hpasses'⟩
    | closing _ hsome _ => cases hnone.symm.trans hsome
  | closing hpasses hsome _ =>
    cases hother with
    | text _ hnone => cases hnone.symm.trans hsome
    | closing hpasses' _ _ => exact ⟨rfl, hpasses.eq_of_same hpasses'⟩

/-- A text and a closing parenthesis complete a display name. -/
theorem not_breaksOff {text : String} (htext : (here.tokenAt 2).string? = some text)
    (hclosing : (here.tokenAt 3).lexeme = .closing) : ¬ here.BreaksOff expected there := by
  rintro (⟨_, hnone⟩ | ⟨_, _, hother⟩)
  · cases hnone.symm.trans htext
  · exact hother hclosing

/-- A display name shows by its opening parenthesis and its head. -/
theorem shows_displayName_iff : here.shows 0 .displayName = true ↔
    here.current.lexeme = .opening ∧ (here.tokenAt 1).lexeme = .annotationHead "name" := by
  simp [shows, current]

/-- Where a display name shows, its first two tokens can be passed. -/
theorem passes_of_shows_displayName (h : here.shows 0 .displayName = true) :
    Passes [here.current, here.tokenAt 1] here here.advance.advance := by
  obtain ⟨hopening, hhead⟩ := shows_displayName_iff.mp h
  have hfirst : Passes [here.current] here here.advance := passes_advance (by simp [hopening])
  have hnext : here.advance.current = here.tokenAt 1 := hfirst.tokenAt_eq 0
  have hsecond : Passes [here.tokenAt 1] here.advance here.advance.advance :=
    hnext ▸ passes_advance (by simp [hnext, hhead])
  exact hfirst.trans hsecond

end Cursor

namespace Grammar

open Cursor Rule

variable {here : Cursor}

/-- Where a display name shows, reading it goes on behind its first two tokens. -/
theorem displayName_of_shows (h : here.shows 0 .displayName = true) :
    Rule.displayName here =
      (Rule.string >>= fun name ↦ closing >>= fun _ ↦ pure ⟨name, here.current.span⟩)
        here.advance.advance := by
  obtain ⟨hopening, hhead⟩ := shows_displayName_iff.mp h
  have hnext : here.advance.current = here.tokenAt 1 :=
    (passes_advance (by simp [hopening])).tokenAt_eq 0
  have hfirst : token [Lexeme.opening.describe] (fun found ↦
      if found.lexeme = .opening then some found.span else none) here =
        (.ok here.current.span, here.advance) :=
    token_of_some (if_pos hopening)
  have hsecond : token [(Lexeme.annotationHead "name").describe] (fun found ↦
      if found.lexeme = .annotationHead "name" then some () else none) here.advance =
        (.ok (), here.advance.advance) :=
    token_of_some (if_pos (hnext ▸ hhead))
  rw [displayName_eq_headedName h]
  simp only [headedName, Step.bind_apply, hfirst, hsecond]

/-- A display name that stands as a whole has a text and a closing parenthesis. -/
theorem text_of_displayName {taken : List Token} {name : DisplayName} {there : Cursor}
    (hphrase : Derivation.displayName taken name) (hpasses : Passes taken here there) :
    (here.tokenAt 2).string? = some name.name ∧ (here.tokenAt 3).lexeme = .closing := by
  obtain ⟨opening, head, text, closing, rfl, -, -, htext, hclosing, -⟩ := hphrase
  have hthird : here.tokenAt 2 = text := by simp [tokenAt, hpasses.ahead]
  have hfourth : here.tokenAt 3 = closing := by simp [tokenAt, hpasses.ahead]
  exact ⟨hthird ▸ Token.string?_eq_some_iff.mpr htext, hfourth ▸ hclosing⟩

/-- Where a display name shows, it stands as a whole, or it breaks off and reading it fails there:
that is up to the third and the fourth token, which have not been looked at. -/
theorem displayName_cases (h : here.shows 0 .displayName = true) :
    (∃ taken value there, Derivation.displayName taken value ∧ Passes taken here there) ∨
    ∃ expected there, here.BreaksOff expected there ∧
      Rule.displayName here = (.error (there.unexpected expected), there) := by
  have htwo := passes_of_shows_displayName h
  have hthird : here.advance.advance.current = here.tokenAt 2 := htwo.tokenAt_eq 0
  rw [displayName_of_shows h, Step.bind_apply, Rule.string]
  cases htext : (here.tokenAt 2).string? with
  | none =>
    right
    refine ⟨_, _, .text htwo htext, ?_⟩
    rw [token_of_none (hthird ▸ htext)]
  | some text =>
    have hlexeme := Token.string?_eq_some_iff.mp htext
    have hthree : Passes [here.current, here.tokenAt 1, here.tokenAt 2] here
        here.advance.advance.advance :=
      hthird ▸ htwo.trans (passes_advance (by simp [hthird, hlexeme]))
    have hfourth : here.advance.advance.advance.current = here.tokenAt 3 := hthree.tokenAt_eq 0
    by_cases hclosing : (here.tokenAt 3).lexeme = .closing
    · left
      obtain ⟨hopening, hhead⟩ := shows_displayName_iff.mp h
      have hfour := hthree.trans (passes_advance (by simp [hfourth, hclosing]))
      rw [hfourth] at hfour
      exact ⟨_, ⟨text, here.current.span⟩, _,
        ⟨_, _, _, _, rfl, hopening, hhead, hlexeme, hclosing, rfl⟩, hfour⟩
    · right
      refine ⟨_, _, .closing hthree htext hclosing, ?_⟩
      rw [token_of_some (hthird ▸ htext)]
      simp only [Step.bind_apply, closing]
      rw [token_of_none (if_neg (hfourth ▸ hclosing))]

end Grammar

/-! ### Elements that may be missing -/

namespace Element

open Cursor

variable {element : Element} {here : Cursor}

/-- An element that does not show is missing. -/
theorem readOptional_of_not_shows (h : here.shows 0 element = false) :
    element.readOptional here = (.ok none, here) := by
  simp [readOptional, h]

/-- An element that shows is read. -/
theorem readOptional_of_shows (h : here.shows 0 element = true) :
    element.readOptional here = (element.read >>= fun value ↦ pure (some value)) here := by
  simp [readOptional, h]

/-- An element that stands as a whole is answered with what it denotes. -/
theorem readOptional_of_phrase {taken : List Token} {value : element.Value} {there : Cursor}
    (hphrase : element.phrase taken value) (hpasses : Passes taken here there) :
    element.readOptional here = (.ok (some value), there) := by
  rw [readOptional_of_shows (starts_phrase element hphrase hpasses), Step.bind_apply,
    accepts_read element hphrase hpasses trivial]
  rfl

/-- A display name that breaks off is answered with an error. -/
theorem readOptional_of_breaksOff {expected : List String} {there : Cursor}
    (hshows : here.shows 0 .displayName = true) (h : here.BreaksOff expected there) :
    displayName.readOptional here = (.error (there.unexpected expected), there) := by
  rcases displayName_cases hshows with
    ⟨taken, value, whole, hphrase, hpasses⟩ | ⟨alternatives, other, hother, hread⟩
  · obtain ⟨htext, hclosing⟩ := text_of_displayName hphrase hpasses
    exact absurd h (not_breaksOff htext hclosing)
  · obtain ⟨rfl, rfl⟩ := h.unique hother
    rw [readOptional_of_shows hshows, Step.bind_apply, read, hread]

/-- What reading an element that may be missing comes to. -/
inductive OptionalOutcome (here : Cursor) :
    (element : Element) → Except GrammarError (Option element.Value) × Cursor → Prop
  /-- The element does not show. -/
  | missing {element : Element} : here.shows 0 element = false →
    OptionalOutcome here element (.ok none, here)
  /-- The element stands as a whole. -/
  | whole {element : Element} {taken : List Token} {value : element.Value} {there : Cursor} :
    element.phrase taken value → Passes taken here there →
      OptionalOutcome here element (.ok (some value), there)
  /-- A display name shows, and breaks off. -/
  | broken {expected : List String} {there : Cursor} :
    here.shows 0 .displayName = true → here.BreaksOff expected there →
      OptionalOutcome here .displayName (.error (there.unexpected expected), there)

/-- Reading an element that may be missing comes to one of the three. -/
theorem optionalOutcome_readOptional (element : Element) (here : Cursor) :
    OptionalOutcome here element (element.readOptional here) := by
  cases hshows : here.shows 0 element with
  | false =>
    rw [readOptional_of_not_shows hshows]
    exact .missing hshows
  | true =>
    by_cases hname : element = .displayName
    · subst hname
      rcases displayName_cases hshows with
        ⟨taken, value, there, hphrase, hpasses⟩ | ⟨expected, there, hbreaks, -⟩
      · have hrun : displayName.readOptional here = (.ok (some value), there) :=
          readOptional_of_phrase hphrase hpasses
        rw [hrun]
        exact .whole hphrase hpasses
      · rw [readOptional_of_breaksOff hshows hbreaks]
        exact .broken hshows hbreaks
    · obtain ⟨taken, value, there, hphrase, hpasses⟩ := exists_phrase_of_shows hname hshows
      rw [readOptional_of_phrase hphrase hpasses]
      exact .whole hphrase hpasses

/-- What reading an element that may be missing comes to is told by the tokens ahead. -/
theorem readOptional_eq_iff {result : Except GrammarError (Option element.Value) × Cursor} :
    element.readOptional here = result ↔ OptionalOutcome here element result := by
  constructor
  · rintro rfl
    exact optionalOutcome_readOptional element here
  · rintro (hmissing | ⟨hphrase, hpasses⟩ | ⟨hshows, hbreaks⟩)
    · exact readOptional_of_not_shows hmissing
    · exact readOptional_of_phrase hphrase hpasses
    · exact readOptional_of_breaksOff hshows hbreaks

/-- An element stands as a whole where it shows, but for a display name, whose text and closing
parenthesis have to be there as well. -/
theorem exists_phrase_iff :
    (∃ taken value there, element.phrase taken value ∧ Passes taken here there) ↔
      here.shows 0 element = true ∧ (element = .displayName →
        ∃ text, (here.tokenAt 2).string? = some text ∧ (here.tokenAt 3).lexeme = .closing) := by
  constructor
  · rintro ⟨taken, value, there, hphrase, hpasses⟩
    refine ⟨starts_phrase element hphrase hpasses, ?_⟩
    rintro rfl
    exact ⟨_, text_of_displayName hphrase hpasses⟩
  · rintro ⟨hshows, hcomplete⟩
    generalize hrun : element.readOptional here = result
    cases readOptional_eq_iff.mp hrun with
    | missing hmissing => cases hmissing.symm.trans hshows
    | whole hphrase hpasses => exact ⟨_, _, _, hphrase, hpasses⟩
    | broken _ hbreaks =>
      obtain ⟨text, htext, hclosing⟩ := hcomplete rfl
      exact absurd hbreaks (not_breaksOff htext hclosing)

/-- The outcomes of reading an element that may be missing. The answer is nothing if and only if
the element does not show, and the cursor stays. The answer is a value if and only if the element
stands as a whole and denotes it, the cursor being behind it; so it is wherever the element shows,
but for a display name, of which the text and the closing parenthesis have to be there as well. An
error arises if and only if a display name shows and breaks off; it is about the first token that
does not belong to it, and the cursor is there. -/
theorem readOptional_outcomes (element : Element) (here : Cursor) :
    (∀ there, element.readOptional here = (.ok none, there) ↔
      here.shows 0 element = false ∧ there = here) ∧
    (∀ value there, element.readOptional here = (.ok (some value), there) ↔
      ∃ taken, element.phrase taken value ∧ Passes taken here there) ∧
    ((∃ value there, element.readOptional here = (.ok (some value), there)) ↔
      here.shows 0 element = true ∧ (element = .displayName →
        ∃ text, (here.tokenAt 2).string? = some text ∧ (here.tokenAt 3).lexeme = .closing)) ∧
    (∀ error there, element.readOptional here = (.error error, there) ↔
      element = .displayName ∧ here.shows 0 .displayName = true ∧
        ∃ expected, here.BreaksOff expected there ∧ error = there.unexpected expected) := by
  refine ⟨fun there ↦ ?_, fun value there ↦ ?_, ?_, fun error there ↦ ?_⟩
  · rw [readOptional_eq_iff]
    constructor
    · rintro ⟨hmissing⟩
      exact ⟨hmissing, rfl⟩
    · rintro ⟨hmissing, rfl⟩
      exact .missing hmissing
  · rw [readOptional_eq_iff]
    constructor
    · rintro (_ | ⟨hphrase, hpasses⟩)
      exact ⟨_, hphrase, hpasses⟩
    · rintro ⟨taken, hphrase, hpasses⟩
      exact .whole hphrase hpasses
  · rw [← exists_phrase_iff]
    simp only [readOptional_eq_iff]
    constructor
    · rintro ⟨value, there, _ | ⟨hphrase, hpasses⟩⟩
      exact ⟨_, value, there, hphrase, hpasses⟩
    · rintro ⟨taken, value, there, hphrase, hpasses⟩
      exact ⟨value, there, .whole hphrase hpasses⟩
  · rw [readOptional_eq_iff]
    constructor
    · rintro (_ | _ | ⟨hshows, hbreaks⟩)
      exact ⟨rfl, hshows, _, hbreaks, rfl⟩
    · rintro ⟨rfl, hshows, expected, hbreaks, rfl⟩
      exact .broken hshows hbreaks

/-- The tokens of a display name without a text. -/
def unwrittenName : TokenList :=
  ⟨[⟨.opening, .single "" ⟨1, 1⟩⟩, ⟨.annotationHead "name", ⟨"", ⟨1, 2⟩, ⟨1, 6⟩⟩⟩,
    ⟨.closing, .single "" ⟨1, 7⟩⟩], ⟨"", ⟨1, 8⟩, ⟨1, 7⟩⟩⟩

/-- A display name without a text shows, and is answered with an error about the parenthesis that
stands in its place. -/
theorem readOptional_unwrittenName :
    TokenList.read "" none "(@name)" = .ok unwrittenName ∧
      (Cursor.start unwrittenName).shows 0 .displayName = true ∧
      ∃ error there, displayName.readOptional (.start unwrittenName) = (.error error, there) ∧
        error.message = "expected string, found `)`" ∧ there.position = 2 := by
  have hread : TokenList.read "" none "(@name)" = .ok unwrittenName := by decide +kernel
  exact ⟨hread, rfl, _, _, rfl, rfl, rfl⟩

end Element

end WatTypes
