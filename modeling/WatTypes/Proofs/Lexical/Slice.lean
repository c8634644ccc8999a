import WatTypes.Proofs.Lexical.Literal
import WatTypes.Proofs.Scanning

/-!
# Tokens are slices of their source

Whatever is read as a token is a slice of the source that is read as this token wherever it stands:
the token of a string literal is over the marks and what stands between them
(`exists_isLiteralBody_of_events`), and the token of any stretch is spelled by the characters from
the place of the stretch to the place behind it (`Stretch.spells_of_read`).
-/

set_option autoImplicit false
set_option relaxedAutoImplicit false

namespace WatTypes

namespace Lexeme

/-! ### String literals -/

/-- Assumes: a string literal whose only event is a token. Between its quotation marks stands a text
that denotes the one of the token. -/
theorem exists_isLiteralBody_of_events {file : String} {start : Position} {here : Place}
    {tokens : List Token} (h : (readString here).events file start = tokens.map .token) :
    ∃ body text, here.rest = body ++ '"' :: (readString here).stop.rest ∧
      (readString here).stop.position = here.position.afterAll (body ++ ['"']) ∧
      IsLiteralBody body text ∧
      tokens = [⟨.string text, .upTo file start (readString here).stop.position⟩] := by
  obtain ⟨left, right, rfl, hleft, hright⟩ := List.map_eq_append_iff.mp h.symm
  have hnone : left = [] := by
    refine List.eq_nil_iff_forall_not_mem.mpr fun token htoken ↦ ?_
    have hmem : Event.token token ∈ (readString here).faults :=
      hleft ▸ List.mem_map_of_mem htoken
    cases token?_of_mem_faults hmem
  subst hnone
  cases hclosed : (readString here).isClosed with
  | false =>
    rw [hclosed, if_neg (by decide)] at hright
    obtain ⟨token, -, hfault⟩ := List.map_eq_singleton_iff.mp hright
    cases hfault
  | true =>
    rw [hclosed, if_pos rfl] at hright
    obtain ⟨body, hbody, hinside⟩ := lenientInside_of_readString hleft.symm hclosed
    have hstop : (readString here).stop.position = here.position.afterAll (body ++ ['"']) := by
      rw [readString_of_lenientInside hinside hbody]
      rfl
    split at hright
    · rename_i text htext
      obtain ⟨token, rfl, htoken⟩ := List.map_eq_singleton_iff.mp hright
      cases htoken
      rw [eq_flatMap_of_fromUTF8? htext] at hinside
      exact ⟨body, text, hbody, hstop, isLiteralBody_iff_lenientInside.mpr hinside, rfl⟩
    · obtain ⟨token, -, hfault⟩ := List.map_eq_singleton_iff.mp hright
      cases hfault

end Lexeme

/-! ### Stretches -/

namespace Stretch

open Lexeme

variable {file : String} {here stop : Place} {c : Char} {rest : List Char}

/-- What is read as an opening parenthesis is one. -/
theorem opening_of_read (h : read file here c rest = (.opening, stop)) :
    c = '(' ∧ stop = here.past ['('] rest := by
  have hread := isRead_read file here c rest
  rw [h] at hread
  cases hread
  exact ⟨rfl, rfl⟩

/-- What is read as a closing parenthesis is one. -/
theorem closing_of_read (h : read file here c rest = (.closing, stop)) :
    c = ')' ∧ stop = here.past [')'] rest := by
  have hread := isRead_read file here c rest
  rw [h] at hread
  cases hread
  exact ⟨rfl, rfl⟩

/-- Words and strings that are no faults are single tokens, spelled by the characters from the place
of the stretch to the place behind it. -/
theorem spells_of_read {tokens : List Token}
    (h : read file here c rest = (.events (tokens.map .token), stop)) :
    ∃ slice lexeme, slice ++ stop.rest = c :: rest ∧
      stop.position = here.position.afterAll slice ∧ Spells slice lexeme ∧
      tokens = [⟨lexeme, .upTo file here.position stop.position⟩] := by
  generalize hevents : tokens.map Event.token = events at h
  have hread := isRead_read file here c rest
  rw [h] at hread
  cases hread with
  | openComment | unexpected =>
    obtain ⟨token, -, hfault⟩ := List.map_eq_singleton_iff.mp hevents
    cases hfault
  | string =>
    obtain ⟨body, text, hbody, hstop, hliteral, rfl⟩ :=
      exists_isLiteralBody_of_events hevents.symm
    have hrest : rest = body ++ '"' :: (readString (here.past ['"'] rest)).stop.rest := hbody
    refine ⟨'"' :: body ++ ['"'], .string text, ?_, hstop, .string hliteral, rfl⟩
    simpa using hrest.symm
  | word hfirst =>
    have hword : ∀ d ∈ c :: rest.takeWhile isIdChar, isIdChar d = true :=
      List.forall_mem_cons.mpr ⟨hfirst, List.all_eq_true.mp List.all_takeWhile⟩
    obtain ⟨token, rfl, htoken⟩ := List.map_eq_singleton_iff.mp hevents
    unfold wordEvent at htoken
    split at htoken
    · rename_i lexeme hlexeme
      cases htoken
      refine ⟨_, lexeme, ?_, rfl, .word hword hlexeme, rfl⟩
      exact congrArg (c :: ·) List.takeWhile_append_dropWhile
    · cases htoken

end Stretch

end WatTypes
