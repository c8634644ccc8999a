import Mathlib.Data.List.Induction
import WatTypes.Proofs.Acceptance.Signature

/-!
# The order of groups in a signature

Groups are written in any order, but none of parameters may come behind one that holds a result. A
group is late (`SignatureGroup.IsLate`) if it is one of parameters and a result stands before it;
an empty group of results forbids nothing, and an empty group of parameters may be late as well.

Reading legal groups goes on from each to the next as long as none is late, with all that they hold
(`signatureGroups_of_inOrder`), and stops on the keyword of the first late one
(`signatureGroup_of_isLate`). So the order error arises if and only if some group is late, at the
first such group, and otherwise all groups are read (`signatureGroups_order`).
-/

set_option autoImplicit false
set_option relaxedAutoImplicit false

namespace WatTypes

/-! ### Late groups -/

namespace SignatureGroup

/-- A group of parameters comes behind groups of which one holds a result. -/
def IsLate (earlier : List SignatureGroup) (group : SignatureGroup) : Prop :=
  group.isResults = false ∧ ∃ before ∈ earlier, before.resultTypes ≠ []

/-- Some group of parameters comes behind a group that holds a result. -/
def HasLate (groups : List SignatureGroup) : Prop :=
  ∃ earlier late later, groups = earlier ++ late :: later ∧ IsLate earlier late

/-- Behind groups that gather results every group of parameters is late, and no other one is. -/
theorem isLate_iff {earlier : List SignatureGroup} {group : SignatureGroup} :
    IsLate earlier group ↔ group.isResults = false ∧ earlier.flatMap resultTypes ≠ [] := by
  rw [IsLate, ne_eq, List.flatMap_eq_nil_iff]
  simp only [not_forall, exists_prop]

/-- A late group is not in order. -/
theorem HasLate.not_inOrder {groups : List SignatureGroup} (h : HasLate groups) :
    ¬ InOrder groups := by
  obtain ⟨earlier, late, later, rfl, hparams, before, hbefore, hresults⟩ := h
  intro horder
  have hkind : late.isResults = true :=
    (List.pairwise_append.mp horder).2.2 before hbefore late List.mem_cons_self hresults
  rw [hparams] at hkind
  cases hkind

/-- Groups that are not in order are in order up to a first late one. -/
theorem exists_first_of_not_inOrder {groups : List SignatureGroup} (h : ¬ InOrder groups) :
    ∃ earlier late later, groups = earlier ++ late :: later ∧ InOrder earlier ∧
      IsLate earlier late := by
  induction groups using List.reverseRecOn with
  | nil => exact absurd .nil h
  | append_singleton front last ih =>
    by_cases hfront : InOrder front
    · refine ⟨front, last, [], rfl, hfront, ?_⟩
      by_contra hlate
      refine h (List.pairwise_append.mpr ⟨hfront, List.pairwise_singleton _ _, ?_⟩)
      intro before hbefore group hgroup hresults
      obtain rfl := List.mem_singleton.mp hgroup
      cases hkind : group.isResults with
      | true => rfl
      | false => exact absurd ⟨hkind, before, hbefore, hresults⟩ hlate
    · obtain ⟨earlier, late, later, rfl, horder, hlate⟩ := ih hfront
      exact ⟨earlier, late, later ++ [last], by simp, horder, hlate⟩

/-- No group is late if and only if the groups are in order. -/
theorem not_hasLate_iff {groups : List SignatureGroup} : ¬ HasLate groups ↔ InOrder groups := by
  refine ⟨fun hnone ↦ ?_, fun horder h ↦ h.not_inOrder horder⟩
  by_contra hdisorder
  obtain ⟨earlier, late, later, hgroups, -, hlate⟩ := exists_first_of_not_inOrder hdisorder
  exact hnone ⟨earlier, late, later, hgroups, hlate⟩

end SignatureGroup

namespace Grammar

open Rule Phrase SignatureGroup

variable {allowsNames : Bool}

/-! ### Reading groups -/

/-- What an empty builder holds behind groups. -/
def gatheredFrom (allowsNames : Bool) (groups : List SignatureGroup) : SignatureBuilder :=
  ⟨allowsNames, groups.flatMap SignatureGroup.params, groups.flatMap resultTypes⟩

/-- Phrases that are given one by one are that many phrases. -/
theorem many_of_forall {α : Type} {phrase : Phrase α} {parts : List (List Token × α)}
    (h : ∀ part ∈ parts, phrase part.1 part.2) :
    Many phrase (parts.flatMap Prod.fst) (parts.map Prod.snd) := by
  induction parts with
  | nil => exact .nil
  | cons part others ih =>
    obtain ⟨hpart, hothers⟩ := List.forall_mem_cons.mp h
    exact .cons hpart (ih hothers)

/-- Reading legal groups that are in order goes on behind them, with all that they hold. -/
theorem signatureGroups_of_inOrder {tokens : List Token} {groups : List SignatureGroup}
    {here there : Cursor} (hgroups : Many (Derivation.group allowsNames) tokens groups)
    (horder : InOrder groups) (hpasses : Cursor.Passes tokens here there) :
    signatureGroups (.empty allowsNames, here) =
      signatureGroups (gatheredFrom allowsNames groups, there) := by
  have hchain : Chain (groupStep Derivation.group) (.empty allowsNames) tokens
      (gatheredFrom allowsNames groups) := by
    refine chain_groupStep_iff.mpr ⟨groups, hgroups, horder, fun h ↦ absurd rfl h, ?_⟩
    rw [foldl_addGroup]
    rfl
  exact gatherWhile_of_chain accepts_signatureGroup starts_groupStep not_groupStep_nil hchain
    hpasses

/-- A group of parameters opens with its keyword. -/
theorem exists_keyword_of_group {tokens : List Token} {group : SignatureGroup}
    (h : Derivation.group allowsNames tokens group) (hparams : group.isResults = false) :
    ∃ opening head inside, tokens = opening :: head :: inside ∧ opening.lexeme = .opening ∧
      head.lexeme = .keyword "param" := by
  obtain ⟨opening, closing, inner, rfl, hopening, -, hinside⟩ := parens_groupInside_iff.mpr h
  rcases hinside with ⟨_, ⟨_, inside, rfl, ⟨head, rfl, hhead⟩, -⟩, -⟩ | ⟨_, -, rfl⟩
  · refine ⟨opening, head, inside ++ [closing], by simp, hopening, ?_⟩
    rw [Token.keyword?_eq_some_iff.mp hhead]
  · cases hparams

/-- Behind results the rule of a group stops on the keyword of a group of parameters. -/
theorem signatureGroup_of_isLate {opening head : Token} {inside : List Token}
    {builder : SignatureBuilder} {here there : Cursor} (hopening : opening.lexeme = .opening)
    (hhead : head.lexeme = .keyword "param") (hresults : builder.results ≠ [])
    (hpasses : Cursor.Passes (opening :: head :: inside) here there) :
    ∃ stop, Cursor.Passes [opening] here stop ∧ stop.current = head ∧
      signatureGroup (builder, here) = (.error (.paramAfterResult head.span), (builder, stop)) := by
  have hparts : Cursor.Passes ([opening] ++ head :: inside) here there := hpasses
  obtain ⟨stop, hleft, hright⟩ := hparts.split
  have hcurrent : stop.current = head := hright.current_eq
  have hopen : Rule.opening here = (.ok (), stop) := by
    rw [← hleft.advance_eq]
    exact token_of_some (by simp [hleft.current_eq, hopening])
  have hparam : stop.shows 0 (.keyword "param") = true := by
    rw [shows_keyword_iff, hcurrent, hhead]
  refine ⟨stop, hleft, hcurrent, ?_⟩
  rw [signatureGroup_eq, Step.bind_apply]
  simp [onCursor, hopen, insideGroup, hparam, hresults, hcurrent]

/-! ### The order law -/

section Order

variable {here there : Cursor}

/-- Assumes: legal groups, and behind them nothing that opens another one. If none is late, all are
read. -/
theorem signatureGroups_of_not_hasLate {parts : List (List Token × SignatureGroup)}
    (hlegal : ∀ part ∈ parts, Derivation.group allowsNames part.1 part.2)
    (hpasses : Cursor.Passes (parts.flatMap Prod.fst) here there)
    (hfollow : there.opensSignatureGroup = false) (h : ¬ HasLate (parts.map Prod.snd)) :
    signatureGroups (.empty allowsNames, here) =
      (.ok (), (gatheredFrom allowsNames (parts.map Prod.snd), there)) := by
  rw [signatureGroups_of_inOrder (many_of_forall hlegal) (not_hasLate_iff.mp h) hpasses]
  exact gatherWhile_of_not_more hfollow

/-- Assumes: legal groups, of which one is late and none before it. Reading stops on the keyword of
this one, with what was before it. -/
theorem signatureGroups_of_isLate {earlier later : List (List Token × SignatureGroup)}
    {late : List Token × SignatureGroup}
    (hlegal : ∀ part ∈ earlier ++ late :: later, Derivation.group allowsNames part.1 part.2)
    (hpasses : Cursor.Passes ((earlier ++ late :: later).flatMap Prod.fst) here there)
    (hbefore : ¬ HasLate (earlier.map Prod.snd)) (h : IsLate (earlier.map Prod.snd) late.2) :
    ∃ opening head inside stop, late.1 = opening :: head :: inside ∧
      head.lexeme = .keyword "param" ∧ stop.current = head ∧
      Cursor.Passes (earlier.flatMap Prod.fst ++ [opening]) here stop ∧
      signatureGroups (.empty allowsNames, here) = (.error (.paramAfterResult head.span),
        (gatheredFrom allowsNames (earlier.map Prod.snd), stop)) := by
  obtain ⟨hearlier, hothers⟩ := List.forall_mem_append.mp hlegal
  have hgroup := hothers late List.mem_cons_self
  rw [List.flatMap_append, List.flatMap_cons] at hpasses
  obtain ⟨middle, hleft, hright⟩ := hpasses.split
  obtain ⟨behind, hfirst, -⟩ := hright.split
  obtain ⟨opening, head, inside, htokens, hopening, hhead⟩ := exists_keyword_of_group hgroup h.1
  have hmore : middle.opensSignatureGroup = true := (starts_signatureGroup _ hgroup hfirst).2.1
  rw [htokens] at hfirst
  have hresults : (gatheredFrom allowsNames (earlier.map Prod.snd)).results ≠ [] :=
    (isLate_iff.mp h).2
  obtain ⟨stop, hstop, hcurrent, hrun⟩ := signatureGroup_of_isLate hopening hhead hresults hfirst
  refine ⟨opening, head, inside, stop, htokens, hhead, hcurrent, hleft.trans hstop, ?_⟩
  rw [signatureGroups_of_inOrder (many_of_forall hearlier) (not_hasLate_iff.mp hbefore) hleft]
  exact gatherWhile_of_error hmore hrun

end Order

/-- Assumes: a sequence of legal groups, names only where they are allowed, and behind it nothing
that opens another group. Reading it into an empty builder fails with the order error if and only if
some group of parameters, even an empty one, comes behind a group that holds a result. The error is
that of the keyword of the first such group, on which the cursor stands; the builder holds what was
before. If there is none, all groups are read, and the builder holds what they hold, in order. -/
theorem signatureGroups_order (allowsNames : Bool) (parts : List (List Token × SignatureGroup))
    (here there : Cursor) (hlegal : ∀ part ∈ parts, Derivation.group allowsNames part.1 part.2)
    (hpasses : Cursor.Passes (parts.flatMap Prod.fst) here there)
    (hfollow : there.opensSignatureGroup = false) :
    ((∃ span stop, signatureGroups (.empty allowsNames, here) =
        (.error (.paramAfterResult span), stop)) ↔ HasLate (parts.map Prod.snd)) ∧
    (∀ earlier late later, parts = earlier ++ late :: later →
      ¬ HasLate (earlier.map Prod.snd) → IsLate (earlier.map Prod.snd) late.2 →
      ∃ opening head inside stop, late.1 = opening :: head :: inside ∧
        head.lexeme = .keyword "param" ∧ stop.current = head ∧
        Cursor.Passes (earlier.flatMap Prod.fst ++ [opening]) here stop ∧
        signatureGroups (.empty allowsNames, here) = (.error (.paramAfterResult head.span),
          (gatheredFrom allowsNames (earlier.map Prod.snd), stop))) ∧
    (¬ HasLate (parts.map Prod.snd) →
      signatureGroups (.empty allowsNames, here) =
        (.ok (), (gatheredFrom allowsNames (parts.map Prod.snd), there))) := by
  refine ⟨⟨?_, fun h ↦ ?_⟩, ?_, signatureGroups_of_not_hasLate hlegal hpasses hfollow⟩
  · rintro ⟨span, stop, hrun⟩
    by_contra hnone
    rw [signatureGroups_of_not_hasLate hlegal hpasses hfollow hnone] at hrun
    cases hrun
  · obtain ⟨before, late, behind, hgroups, horder, hfirst⟩ :=
      exists_first_of_not_inOrder h.not_inOrder
    obtain ⟨earlier, others, rfl, rfl, hothers⟩ := List.map_eq_append_iff.mp hgroups
    obtain ⟨part, later, rfl, rfl, -⟩ := List.map_eq_cons_iff.mp hothers
    obtain ⟨_, head, _, stop, -, -, -, -, hrun⟩ := signatureGroups_of_isLate hlegal hpasses
      (not_hasLate_iff.mpr horder) hfirst
    exact ⟨head.span, _, hrun⟩
  · rintro earlier late later rfl hbefore hfirst
    exact signatureGroups_of_isLate hlegal hpasses hbefore hfirst

/-- A token on the first line of a source. -/
def onFirstLine (column : Int) (lexeme : Lexeme) : Token := ⟨lexeme, .single "" ⟨1, column⟩⟩

/-- An empty group of results, a parameter with a name, a result, and an empty group of
parameters. -/
def lateGroups : List (List Token × SignatureGroup) :=
  [([onFirstLine 1 .opening, onFirstLine 2 (.keyword "result"), onFirstLine 8 .closing],
      .results []),
    ([onFirstLine 9 .opening, onFirstLine 10 (.keyword "param"), onFirstLine 16 (.id "x"),
        onFirstLine 19 (.keyword "i32"), onFirstLine 22 .closing],
      .named ⟨.i32, some ⟨"x", .single "" ⟨1, 16⟩⟩, none⟩),
    ([onFirstLine 23 .opening, onFirstLine 24 (.keyword "result"),
        onFirstLine 31 (.keyword "anyfunc"), onFirstLine 38 .closing], .results [.funcref]),
    ([onFirstLine 39 .opening, onFirstLine 40 (.keyword "param"), onFirstLine 45 .closing],
      .anonymous [])]

/-- All of them are legal. -/
theorem group_of_mem_lateGroups : ∀ part ∈ lateGroups, Derivation.group true part.1 part.2 := by
  have hempty : Derivation.group true lateGroups[0].1 lateGroups[0].2 :=
    .inr (.inr ⟨onFirstLine 1 .opening, onFirstLine 8 .closing, [onFirstLine 2 (.keyword "result")],
      rfl, rfl, rfl, (.single "" ⟨1, 2⟩, []), ⟨[_], [], rfl, ⟨_, rfl, rfl⟩, .nil⟩, rfl⟩)
  have hnamed : Derivation.group true lateGroups[1].1 lateGroups[1].2 :=
    .inr (.inl ⟨⟨onFirstLine 9 .opening, onFirstLine 22 .closing,
      [onFirstLine 10 (.keyword "param"), onFirstLine 16 (.id "x"),
        onFirstLine 19 (.keyword "i32")], rfl, rfl, rfl,
      (.single "" ⟨1, 10⟩, ⟨.i32, some ⟨"x", .single "" ⟨1, 16⟩⟩, none⟩),
      ⟨[_], [_, _], rfl, ⟨_, rfl, rfl⟩,
        ⟨(some ⟨"x", .single "" ⟨1, 16⟩⟩, none, .i32), ⟨[_], [_], rfl, ⟨_, rfl, rfl⟩,
          [], [_], rfl, rfl, _, rfl, rfl⟩, rfl⟩, rfl⟩, rfl⟩, rfl⟩)
  have hresult : Derivation.group true lateGroups[2].1 lateGroups[2].2 :=
    .inr (.inr ⟨onFirstLine 23 .opening, onFirstLine 38 .closing,
      [onFirstLine 24 (.keyword "result"), onFirstLine 31 (.keyword "anyfunc")], rfl, rfl, rfl,
      (.single "" ⟨1, 24⟩, [.funcref]), ⟨[_], [_], rfl, ⟨_, rfl, rfl⟩,
        show Many _ ([onFirstLine 31 (.keyword "anyfunc")] ++ []) _ from
          .cons ⟨_, rfl, rfl⟩ .nil⟩, rfl⟩)
  have hlate : Derivation.group true lateGroups[3].1 lateGroups[3].2 :=
    .inl ⟨onFirstLine 39 .opening, onFirstLine 45 .closing, [onFirstLine 40 (.keyword "param")],
      rfl, rfl, rfl, (.single "" ⟨1, 40⟩, []), ⟨[_], [], rfl, ⟨_, rfl, rfl⟩, .nil⟩, rfl⟩
  simpa [lateGroups] using And.intro hempty (And.intro hnamed (And.intro hresult hlate))

theorem signatureGroups_order_lateGroups :
    ∃ here stop, here.ahead = lateGroups.flatMap Prod.fst ∧
      (∀ part ∈ lateGroups, Derivation.group true part.1 part.2) ∧
      HasLate (lateGroups.map Prod.snd) ∧
      signatureGroups (.empty true, here) =
        (.error (.paramAfterResult (.single "" ⟨1, 40⟩)),
          (⟨true, [⟨.i32, some ⟨"x", .single "" ⟨1, 16⟩⟩, none⟩], [.funcref]⟩, stop)) ∧
      stop.position = 13 := by
  let here : Cursor := ⟨[], lateGroups.flatMap Prod.fst, .single "" ⟨1, 46⟩⟩
  let there : Cursor := ⟨(lateGroups.flatMap Prod.fst).reverse, [], .single "" ⟨1, 46⟩⟩
  have hpasses : Cursor.Passes (lateGroups.flatMap Prod.fst) here there := ⟨rfl, rfl, rfl⟩
  have horder : InOrder ((lateGroups.take 3).map Prod.snd) := by
    simp [InOrder, lateGroups, resultTypes, isResults]
  obtain ⟨hiff, hfirst, -⟩ :=
    signatureGroups_order true lateGroups here there group_of_mem_lateGroups hpasses rfl
  obtain ⟨opening, head, inside, stop, htokens, -, -, hstop, hrun⟩ :=
    hfirst (lateGroups.take 3) lateGroups[3] [] rfl (not_hasLate_iff.mpr horder)
      ⟨rfl, .results [.funcref], by simp [lateGroups], by simp [resultTypes]⟩
  cases htokens
  exact ⟨here, stop, rfl, group_of_mem_lateGroups, hiff.mp ⟨_, _, hrun⟩, hrun, hstop.position_eq⟩

end Grammar

end WatTypes
