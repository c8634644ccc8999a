import WatTypes.Proofs.Balance
import WatTypes.Proofs.Parsing

/-!
# Errors are found at the first wrong token

Where tokens cannot be read as a module, the tokens before the error are the start of a module, each
alternative that the error lists can come next, and no module starts with the tokens up to and with
the one behind the error (`correct_prefix_of_error`). The first two parts are what a rule shows
where it fails (`Rule.Outcome`); the last one holds because a failed reading depends on no token
further ahead.
-/

set_option autoImplicit false
set_option relaxedAutoImplicit false

namespace WatTypes

open Grammar Rule

/-- Tokens that end once and are read as a module. -/
def TokenList.Accepted (tokens : TokenList) : Prop :=
  tokens.EndsOnce ∧ ∃ m, TypeModule.ofTokens tokens = .ok m

/-- The tokens of a module are accepted, wherever the input ends. -/
theorem accepted_of_module {body : List Token} {parts : Option Id × List Field}
    (h : Derivation.module body parts) (stop : Span) : TokenList.Accepted ⟨body, stop⟩ := by
  refine ⟨fun token htoken ↦ ?_, _, ofTokens_of_module h⟩
  exact (isBalanced_module h).ne_endOfInput _ (List.mem_map_of_mem htoken)

/-! ### Where reading stops -/

/-- A failed reading has passed the start of a module, and it fails in the same way wherever the
tokens passed and two more are the same. -/
theorem passes_of_error {here there : Cursor} {error : GrammarError}
    (hrun : Grammar.module here = (.error error, there)) :
    ∃ taken, Cursor.Passes taken here there ∧
      (Derivation.module.Continues taken error.alternatives ∨
        (∃ parts, Derivation.module taken parts) ∧
          error.alternatives = [Lexeme.endOfInput.describe]) ∧
      ∀ other, here.AgreesOn (taken.length + 2) other →
        ∃ behind, Grammar.module other = (.error error, behind) := by
  obtain ⟨taken, hpasses, houtcome, hlocal⟩ := reads_moduleParts here
  rw [module_apply] at hrun
  rcases hparts : moduleParts here with ⟨outcome, stop⟩
  rw [hparts] at hpasses houtcome hlocal hrun
  cases outcome with
  | error cause =>
    cases hrun
    refine ⟨taken, hpasses, .inl houtcome, fun other hagrees ↦ ?_⟩
    obtain ⟨behind, -, hother⟩ := hlocal other hagrees
    exact ⟨behind, by rw [module_apply, hother]⟩
  | ok parts =>
    cases hstop : stop.isAtEnd with
    | true =>
      simp only [hstop, if_true] at hrun
      cases hrun
    | false =>
      simp only [hstop, Bool.false_eq_true, if_false] at hrun
      cases hrun
      refine ⟨taken, hpasses, .inr ⟨⟨parts, houtcome⟩, rfl⟩, fun other hagrees ↦ ?_⟩
      obtain ⟨behind, hbehind, hother⟩ := hlocal other hagrees
      have htwo := hagrees.of_passes hpasses hbehind
      have hnot : behind.isAtEnd = false := by rw [htwo.isAtEnd_eq, hstop]
      refine ⟨behind, ?_⟩
      rw [module_apply, hother]
      simp only [hnot, Bool.false_eq_true, if_false, htwo.unexpected_eq]

/-! ### Lists that start alike -/

/-- The tokens before a place are those passed. -/
theorem take_position {tokens : TokenList} {taken : List Token} {there : Cursor}
    (h : Cursor.Passes taken (.start tokens) there) :
    tokens.toList.take there.position = taken := by
  have hbody : tokens.body = taken ++ there.ahead := h.ahead
  have hposition : there.position = taken.length := by simpa using h.position_eq
  rw [TokenList.toList, hbody, hposition, List.append_assoc, List.take_left]

/-- The tokens that a cursor at the start shows are those of the list, and then its end. -/
theorem tokenAt_start (tokens : TokenList) (distance : Nat) :
    (Cursor.start tokens).tokenAt distance =
      (tokens.toList[distance]?).getD ⟨.endOfInput, tokens.stop⟩ := by
  rcases Nat.lt_trichotomy distance tokens.body.length with hless | heq | hmore
  · simp [Cursor.tokenAt, Cursor.start, TokenList.toList, Cursor.endToken,
      List.getElem?_append_left hless]
  · simp [Cursor.tokenAt, Cursor.start, TokenList.toList, Cursor.endToken, heq]
  · have hnone : tokens.toList.length ≤ distance := by
      simp only [TokenList.toList, List.length_append, List.length_singleton]
      omega
    simp [Cursor.tokenAt, Cursor.start, Cursor.endToken, List.getElem?_eq_none hnone,
      List.getElem?_eq_none (Nat.le_of_lt hmore)]

/-- A list that ends once and starts with another one up to its end is that one. -/
theorem TokenList.EndsOnce.eq_of_isPrefix {tokens others : TokenList} (h : others.EndsOnce)
    (hfront : tokens.toList <+: others.toList) : others = tokens := by
  obtain ⟨rest, hrest⟩ := hfront
  rw [toList, toList] at hrest
  rcases List.eq_nil_or_concat rest with rfl | ⟨before, last, rfl⟩
  · rw [List.append_nil] at hrest
    obtain ⟨hbody, hend⟩ := List.append_inj' hrest rfl
    obtain ⟨body, stop⟩ := tokens
    obtain ⟨body', stop'⟩ := others
    cases hbody
    cases hend
    rfl
  · rw [List.concat_eq_append, ← List.append_assoc] at hrest
    obtain ⟨hbody, -⟩ := List.append_inj' hrest rfl
    have hmem : (⟨.endOfInput, tokens.stop⟩ : Token) ∈ others.body := by simp [← hbody]
    exact absurd rfl (h _ hmem)

/-- Cursors at the start of lists that start alike show the same. -/
theorem agreesOn_of_isPrefix {tokens others : TokenList} (h : others.EndsOnce) {bound : Nat}
    (hfront : tokens.toList.take bound <+: others.toList) :
    (Cursor.start tokens).AgreesOn bound (.start others) := by
  intro distance hdistance
  by_cases hshort : distance < tokens.toList.length
  · have htake : (tokens.toList.take bound)[distance]? = some tokens.toList[distance] := by
      rw [List.getElem?_take_of_lt hdistance, List.getElem?_eq_getElem hshort]
    obtain ⟨rest, hrest⟩ := hfront
    have hother : others.toList[distance]? = some tokens.toList[distance] := by
      rw [← hrest, List.getElem?_append_left (List.getElem?_eq_some_iff.mp htake).1, htake]
    rw [tokenAt_start, tokenAt_start, List.getElem?_eq_getElem hshort, hother]
    rfl
  · rw [List.take_of_length_le (by omega)] at hfront
    rw [h.eq_of_isPrefix hfront]

/-- Assumes: reading the tokens fails. The tokens before the error start some tokens that are
accepted, each alternative that the error lists comes next in some of them, and no tokens are
accepted that start with those up to and with the one behind the error. -/
theorem correct_prefix_of_error (tokens : TokenList) {error : GrammarError} {there : Cursor}
    (hrun : Grammar.module (.start tokens) = (.error error, there)) :
    (∃ others : TokenList, others.Accepted ∧
      tokens.toList.take there.position <+: others.toList) ∧
    (∀ name ∈ error.alternatives, ∃ others : TokenList, others.Accepted ∧
      tokens.toList.take there.position <+: others.toList ∧
      ∃ token, others.toList[there.position]? = some token ∧ token.Meets name) ∧
    ∀ others : TokenList, others.Accepted →
      ¬ tokens.toList.take (there.position + 2) <+: others.toList := by
  obtain ⟨taken, hpasses, houtcome, hlocal⟩ := passes_of_error hrun
  have hposition : there.position = taken.length := by simpa using hpasses.position_eq
  rw [take_position hpasses]
  refine ⟨?_, fun name hname ↦ ?_, fun others haccepted hfront ↦ ?_⟩
  · rcases houtcome with hcontinues | ⟨⟨parts, hparts⟩, -⟩
    · obtain ⟨more, parts, hparts⟩ := hcontinues.completed
      exact ⟨_, accepted_of_module hparts tokens.stop, by simp [TokenList.toList]⟩
    · exact ⟨_, accepted_of_module hparts tokens.stop, by simp [TokenList.toList]⟩
  · rcases houtcome with hcontinues | ⟨⟨parts, hparts⟩, hend⟩
    · obtain ⟨token, more, parts, hmeets, hparts⟩ := hcontinues.offered name hname
      exact ⟨_, accepted_of_module hparts tokens.stop, by simp [TokenList.toList], token,
        by simp [TokenList.toList, hposition], hmeets⟩
    · rw [hend, List.mem_singleton] at hname
      rw [hname]
      exact ⟨_, accepted_of_module hparts tokens.stop, by simp [TokenList.toList],
        ⟨.endOfInput, tokens.stop⟩, by simp [TokenList.toList, hposition], .described rfl⟩
  · obtain ⟨hothers, m, hm⟩ := haccepted
    rw [hposition] at hfront
    obtain ⟨behind, hbehind⟩ := hlocal (.start others) (agreesOn_of_isPrefix hothers hfront)
    rw [TypeModule.ofTokens, hbehind] at hm
    cases hm

/-- The tokens of a field that is of no kind. -/
def unknownFieldTokens : TokenList :=
  ⟨[.opening, .keyword "data", .closing].map bareToken, .single "" .first⟩

theorem correct_prefix_unknownFieldTokens :
    ∃ error there, Grammar.module (.start unknownFieldTokens) = (.error error, there) ∧
      (∃ others : TokenList, others.Accepted ∧
        unknownFieldTokens.toList.take 1 <+: others.toList) ∧
      ∀ others : TokenList, others.Accepted →
        ¬ unknownFieldTokens.toList.take 3 <+: others.toList := by
  have hrun : Grammar.module (.start unknownFieldTokens) =
      (.error (.unexpected ["`type`", "`global`", "`table`", "`memory`", "`func`"] "`data`"
          (.single "" .first)),
        ⟨[bareToken .opening], [bareToken (.keyword "data"), bareToken .closing],
          .single "" .first⟩) := by
    cbv
  obtain ⟨hstart, -, hnone⟩ := correct_prefix_of_error unknownFieldTokens hrun
  exact ⟨_, _, hrun, hstart, hnone⟩

end WatTypes
