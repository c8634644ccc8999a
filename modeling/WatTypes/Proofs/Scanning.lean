import WatTypes.Proofs.Layout
import WatTypes.Tree.WellFormed

/-!
# What a source can hold

Reading a source never gives the end of the input as a token, and identifiers come out as words
(`Lexeme.IsScannable`). Where no fault is met, each stretch leads from one number of open
parentheses to another within the limit (`Scanned`), the rest of a source leads to none
(`scanned_of_readFrom`), and so all parentheses of a source that is read are closed
(`scanned_of_read`).
-/

set_option autoImplicit false
set_option relaxedAutoImplicit false

namespace WatTypes

/-! ### Lexemes of sources -/

/-- A lexeme that a source can hold: not its end, and an identifier only if it is a word. -/
def Lexeme.IsScannable : Lexeme → Prop
  | .id name => IsWord name
  | .endOfInput => False
  | _ => True

namespace Lexeme

/-- What a word of a source is read as. -/
theorem isScannable_of_ofWord {word : List Char} {lexeme : Lexeme}
    (hword : ∀ c ∈ word, isIdChar c = true) (h : ofWord word = .ok lexeme) :
    lexeme.IsScannable := by
  rcases ofWord_cases h with ⟨name, rfl, hname, rfl⟩ | ⟨_, -, -, rfl⟩ | ⟨-, rfl⟩ | ⟨-, rfl⟩ |
    ⟨_, _, -, -, rfl⟩
  · refine ⟨fun hempty ↦ hname ?_, fun c hc ↦ hword c (List.mem_cons_of_mem _ ?_)⟩
    · simpa using congrArg String.toList hempty
    · simpa using hc
  all_goals trivial

/-- The faults of a string literal are that of its first piece, if it is faulty, and those of the
pieces behind it. -/
theorem StringBody.mem_faults_cons {piece : Except Fault (List UInt8)} {here : Position}
    {body : StringBody} {event : Event} (h : event ∈ (body.cons piece here).faults) :
    (∃ fault, event = .fault fault here) ∨ event ∈ body.faults := by
  cases piece with
  | ok bytes => exact .inr h
  | error fault =>
    rcases List.mem_cons.mp h with rfl | hmem
    · exact .inl ⟨fault, rfl⟩
    · exact .inr hmem

/-- The faults of a string literal are no tokens. -/
theorem token?_of_mem_faults {here : Place} {event : Event}
    (h : event ∈ (readString here).faults) : event.token? = none := by
  fun_induction readString here with
  | case1 | case2 | case3 => exact (List.not_mem_nil h).elim
  | case4 here rest hrest escape ih =>
    rcases StringBody.mem_faults_cons h with ⟨fault, rfl⟩ | hmem
    · rfl
    · exact ih hmem
  | case5 here c rest _ _ _ hrest ih => exact ih h

end Lexeme

open Grammar Lexeme Scan

/-- A token among the events of a stretch is no parenthesis, and a source can hold it. -/
theorem Stretch.lexeme_of_read {file : String} {here stop : Place} {c : Char} {rest : List Char}
    {events : List Event} (h : read file here c rest = (.events events, stop)) {token : Token}
    (htoken : .token token ∈ events) : token.lexeme.IsPlain ∧ token.lexeme.IsScannable := by
  have hread := isRead_read file here c rest
  rw [h] at hread
  cases hread with
  | openComment | unexpected => simp at htoken
  | string =>
    rcases List.mem_append.mp htoken with hfault | htoken
    · cases token?_of_mem_faults hfault
    split at htoken
    · split at htoken
      · cases List.mem_singleton.mp htoken
        exact ⟨by simp [IsPlain], trivial⟩
      · simp at htoken
    · simp at htoken
  | word hfirst =>
    have hword : ∀ d ∈ c :: rest.takeWhile isIdChar, isIdChar d = true :=
      List.forall_mem_cons.mpr ⟨hfirst, List.all_eq_true.mp List.all_takeWhile⟩
    rw [wordEvent] at htoken
    split at htoken
    · rename_i lexeme hlexeme
      cases List.mem_singleton.mp htoken
      exact ⟨(kind_of_ofWord hlexeme).1, isScannable_of_ofWord hword hlexeme⟩
    · simp at htoken

/-! ### Whole sources -/

section Source

variable {file : String} {limit : Option NestingLimit} {depth : Nat} {tokens : List Token}

/-- A source can hold the tokens, and their parentheses lead from one number of open ones to another
within the limit. -/
structure Scanned (limit : Option NestingLimit) (depth : Nat) (tokens : List Token)
    (behind : Nat) : Prop where
  /-- A source can hold the tokens. -/
  scannable : ∀ lexeme ∈ lexemesOf tokens, lexeme.IsScannable
  /-- The parentheses lead to the number behind. -/
  depthBehind : depthBehind? limit depth (lexemesOf tokens) = some behind

/-- Tokens behind others. -/
theorem Scanned.append {left right : List Token} {middle behind : Nat}
    (hleft : Scanned limit depth left middle) (hright : Scanned limit middle right behind) :
    Scanned limit depth (left ++ right) behind where
  scannable := by
    rw [lexemesOf_append]
    exact List.forall_mem_append.mpr ⟨hleft.scannable, hright.scannable⟩
  depthBehind := by
    rw [lexemesOf_append, depthBehind?_append, hleft.depthBehind]
    exact hright.depthBehind

/-- A single lexeme that a source can hold. -/
theorem scanned_singleton {token : Token} {past : Nat} (h : token.lexeme.IsScannable)
    (hpast : depthPast? limit depth token.lexeme = some past) :
    Scanned limit depth [token] past where
  scannable := List.forall_mem_singleton.mpr h
  depthBehind := by
    rw [lexemesOf_cons, depthBehind?_cons, hpast]
    rfl

/-- An opening parenthesis that is no fault is a token, and admitted. -/
theorem eq_of_openingEvents {start stop : Position}
    (h : openingEvents file limit depth start stop = tokens.map .token) :
    tokens = [⟨.opening, .upTo file start stop⟩] ∧ NestingLimit.Admits limit depth := by
  unfold openingEvents at h
  split at h
  · obtain ⟨token, rfl, htoken⟩ := List.map_eq_singleton_iff.mp h.symm
    cases htoken
    exact ⟨rfl, fun bound hbound ↦ (nomatch hbound)⟩
  · split at h
    · obtain ⟨token, others, rfl, hfault, -⟩ := List.map_eq_cons_iff.mp h.symm
      cases hfault
    · rename_i hdepth
      obtain ⟨token, rfl, htoken⟩ := List.map_eq_singleton_iff.mp h.symm
      cases htoken
      refine ⟨rfl, fun bound hbound ↦ ?_⟩
      cases hbound
      exact hdepth

/-- A closing parenthesis that is no fault is a token, and closes one that was opened. -/
theorem eq_of_closingEvent {start stop : Position}
    (h : [closingEvent file depth start stop] = tokens.map .token) :
    tokens = [⟨.closing, .upTo file start stop⟩] ∧ depth ≠ 0 := by
  obtain ⟨token, rfl, htoken⟩ := List.map_eq_singleton_iff.mp h.symm
  unfold closingEvent at htoken
  split at htoken
  · cases htoken
  · rename_i hdepth
    cases htoken
    exact ⟨rfl, hdepth⟩

/-- The end of the input that is no fault is no token, and leaves no parenthesis open. -/
theorem eq_of_endEvents {here : Position} (h : endEvents depth here = tokens.map .token) :
    tokens = [] ∧ depth = 0 := by
  unfold endEvents at h
  split at h
  · rename_i hdepth
    exact ⟨List.map_eq_nil_iff.mp h.symm, hdepth⟩
  · obtain ⟨token, -, hfault⟩ := List.map_eq_singleton_iff.mp h.symm
    cases hfault

/-- Words and strings that are no faults open and close nothing. -/
theorem scanned_of_stretch {here stop : Place} {c : Char} {rest : List Char}
    (hread : Stretch.read file here c rest = (.events (tokens.map .token), stop)) :
    Scanned limit depth tokens depth := by
  have htokens : ∀ lexeme ∈ lexemesOf tokens, lexeme.IsPlain ∧ lexeme.IsScannable := by
    intro lexeme hlexeme
    obtain ⟨token, htoken, rfl⟩ := List.mem_map.mp hlexeme
    exact Stretch.lexeme_of_read hread (List.mem_map_of_mem htoken)
  exact ⟨fun lexeme hlexeme ↦ (htokens lexeme hlexeme).2,
    nests_of_forall_isPlain fun lexeme hlexeme ↦ (htokens lexeme hlexeme).1⟩

/-- Assumes: no fault is met from a place on. A source can hold the tokens there, and their
parentheses close the open ones and nest as deep as allowed. -/
theorem scanned_of_readFrom {here : Place}
    (h : (readFrom file limit depth here).events = tokens.map .token) :
    Scanned limit depth tokens 0 := by
  fun_induction readFrom file limit depth here generalizing tokens with
  | case1 depth here hrest =>
    obtain ⟨rfl, rfl⟩ := eq_of_endEvents h
    exact ⟨fun _ hmem ↦ (List.not_mem_nil hmem).elim, rfl⟩
  | case2 depth here c rest hrest stop hread ih => exact ih h
  | case3 depth here c rest hrest stop hread ih =>
    obtain ⟨left, right, rfl, hleft, hright⟩ := List.map_eq_append_iff.mp h.symm
    obtain ⟨rfl, hadmits⟩ := eq_of_openingEvents hleft.symm
    have hopening : Scanned limit depth [⟨.opening, .upTo file here.position stop.position⟩]
        (depth + 1) := scanned_singleton trivial (if_pos hadmits)
    exact hopening.append (ih hright.symm)
  | case4 depth here c rest hrest stop hread ih =>
    obtain ⟨left, right, rfl, hleft, hright⟩ := List.map_eq_append_iff.mp h.symm
    obtain ⟨rfl, hopen⟩ := eq_of_closingEvent hleft.symm
    have hclosing : Scanned limit depth [⟨.closing, .upTo file here.position stop.position⟩]
        (depth - 1) := scanned_singleton trivial (if_neg hopen)
    exact hclosing.append (ih hright.symm)
  | case5 depth here c rest hrest events stop hread ih =>
    obtain ⟨left, right, rfl, rfl, hright⟩ := List.map_eq_append_iff.mp h.symm
    exact (scanned_of_stretch hread).append (ih hright.symm)

/-- Events that are no faults are tokens. -/
theorem map_token_of_diagnostic? {events : List Event}
    (h : events.filterMap (Event.diagnostic? file) = []) :
    events = (events.filterMap Event.token?).map .token := by
  induction events with
  | nil => rfl
  | cons event others ih =>
    cases event with
    | token token => exact congrArg (.token token :: ·) (ih h)
    | fault fault position => cases h

/-- A source is read into the tokens of its scan if the scan has no diagnostics. -/
theorem read_eq_ok_iff {source : String} {tokens : TokenList} :
    TokenList.read file limit source = .ok tokens ↔
      (ofSource file limit source).diagnostics file = [] ∧
        (ofSource file limit source).tokens file = tokens := by
  unfold TokenList.read
  cases hfaults : (ofSource file limit source).diagnostics file with
  | nil => simp [hfaults]
  | cons fault others => simp [hfaults]

/-- A source can hold the tokens of one that is read, and their parentheses are all closed. -/
theorem scanned_of_read {source : String} {tokens : TokenList}
    (h : TokenList.read file limit source = .ok tokens) : Scanned limit 0 tokens.body 0 := by
  obtain ⟨hclean, rfl⟩ := read_eq_ok_iff.mp h
  exact scanned_of_readFrom (map_token_of_diagnostic? hclean)

end Source

end WatTypes
