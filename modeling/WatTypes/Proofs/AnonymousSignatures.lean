import WatTypes.Proofs.GroupOrder

/-!
# Signatures without names

Where names are not allowed a signature is read as where they are, but only if none of its
parameters bears a name. Groups that are read to their end are legal groups in order, with nothing
behind them that opens another one (`signatureGroups_eq_ok_iff`), and a group is legal without names
if and only if it is legal with them and its parameters bear none (`group_false_iff`). So the rules
that forbid names answer if and only if those that allow them answer with parameters without names,
alike and at the same place (`not_allowsNames_iff_anonymous`); where and how they fail is their own.
-/

set_option autoImplicit false
set_option relaxedAutoImplicit false

namespace WatTypes.Grammar

open Rule Phrase SignatureGroup

/-! ### Groups read to their end -/

/-- Assumes: a rule that comes nearer to the end of the input where it answers. Where gathering
answers nothing more comes. -/
theorem not_more_of_gatherWhile {more : Cursor → Bool} {rule : SignatureRule Unit}
    (hless : ∀ {here there : SignatureBuilder × Cursor} {answer : Unit},
      rule here = (.ok answer, there) → there.2.ahead.length < here.2.ahead.length)
    {here there : SignatureBuilder × Cursor} {answer : Unit}
    (h : gatherWhile more rule here = (.ok answer, there)) : more there.2 = false := by
  induction hlength : here.2.ahead.length using Nat.strongRecOn generalizing here with
  | ind length ih =>
    cases hmore : more here.2 with
    | false =>
      rw [gatherWhile_of_not_more hmore] at h
      cases h
      exact hmore
    | true =>
      rcases hrun : rule here with ⟨error | _, next⟩
      · cases (gatherWhile_of_error hmore hrun).symm.trans h
      · have hnearer := hless hrun
        rw [gatherWhile_of_more hmore hrun hnearer] at h
        exact ih _ (hlength ▸ hnearer) h rfl

section Groups

variable {allowsNames : Bool} {here there : Cursor} {gathered : SignatureBuilder}

/-- What an empty builder gathers where it is read to its end: legal groups in order. -/
theorem signatureGroups_eq_ok_iff :
    signatureGroups (.empty allowsNames, here) = (.ok (), (gathered, there)) ↔
      ∃ tokens groups, Many (Derivation.group allowsNames) tokens groups ∧ InOrder groups ∧
        Cursor.Passes tokens here there ∧ there.opensSignatureGroup = false ∧
          gathered = gatheredFrom allowsNames groups := by
  constructor
  · intro h
    have hend : there.opensSignatureGroup = false := not_more_of_gatherWhile
      (fun hrun ↦ length_ahead_lt_of_gathering reads_signatureGroup not_groupStep_nil hrun) h
    have hreads : Reads (gathering signatureGroups (.empty allowsNames)) _ :=
      reads_gatherWhile (fun hagrees ↦ hagrees.opensSignatureGroup_eq) reads_signatureGroup
        not_groupStep_nil (.empty allowsNames)
    have hrun : gathering signatureGroups (.empty allowsNames) here =
        (.ok ((), gathered), there) := by rw [gathering, h]
    obtain ⟨tokens, hpasses, houtcome, -⟩ := hreads here
    rw [hrun] at hpasses houtcome
    obtain ⟨groups, hgroups, horder, -, hgathered⟩ := chain_groupStep_iff.mp houtcome
    refine ⟨tokens, groups, hgroups, horder, hpasses, hend, hgathered.trans ?_⟩
    rw [foldl_addGroup]
    rfl
  · rintro ⟨tokens, groups, hgroups, horder, hpasses, hend, rfl⟩
    rw [signatureGroups_of_inOrder hgroups horder hpasses]
    exact gatherWhile_of_not_more hend

/-- A signature is read where its groups are. -/
theorem signature_eq_ok_iff {func : FunctionType} :
    Grammar.signature allowsNames here = (.ok func, there) ↔
      signatureGroups (.empty allowsNames, here) =
        (.ok (), (⟨allowsNames, func.params, func.results⟩, there)) := by
  rw [Grammar.signature]
  rcases hrun : signatureGroups (.empty allowsNames, here) with ⟨error | _, gathered, stop⟩
  · simp
  · obtain ⟨_, _, -, -, -, -, rfl⟩ := signatureGroups_eq_ok_iff.mp hrun
    obtain ⟨params, results⟩ := func
    simp [gatheredFrom, SignatureBuilder.finish]

end Groups

/-! ### Groups without names -/

/-- A group is legal without names if it is legal with them and its parameters bear none. -/
theorem group_false_iff {tokens : List Token} {group : SignatureGroup} :
    Derivation.group false tokens group ↔
      Derivation.group true tokens group ∧ ∀ param ∈ group.params, param.isNamed = false := by
  constructor
  · rintro (hanonymous | ⟨-, hnames⟩ | hresults)
    · refine ⟨.inl hanonymous, ?_⟩
      obtain ⟨_, _, _, -, -, -, ⟨_, types⟩, -, rfl⟩ := hanonymous
      simp [SignatureGroup.params, Param.anonymous, Param.isNamed]
    · cases hnames
    · refine ⟨.inr (.inr hresults), ?_⟩
      obtain ⟨_, _, _, -, -, -, ⟨_, types⟩, -, rfl⟩ := hresults
      simp [SignatureGroup.params]
  · rintro ⟨hanonymous | ⟨hnamed, -⟩ | hresults, hparams⟩
    · exact .inl hanonymous
    · obtain ⟨_, _, _, -, -, -, ⟨_, param⟩, ⟨_, _, -, -, -, hname⟩, rfl⟩ := hnamed
      cases (hparams param List.mem_cons_self).symm.trans hname
    · exact .inr (.inr hresults)

/-- Groups are legal without names if they are legal with them and their parameters bear none. -/
theorem many_group_false_iff {tokens : List Token} {groups : List SignatureGroup} :
    Many (Derivation.group false) tokens groups ↔
      Many (Derivation.group true) tokens groups ∧
        ∀ param ∈ groups.flatMap SignatureGroup.params, param.isNamed = false := by
  constructor
  · intro h
    induction h with
    | nil => exact ⟨.nil, by simp⟩
    | cons hfirst _ ih =>
      obtain ⟨hgroup, hparams⟩ := group_false_iff.mp hfirst
      rw [List.flatMap_cons, List.forall_mem_append]
      exact ⟨.cons hgroup ih.1, hparams, ih.2⟩
  · rintro ⟨h, hparams⟩
    induction h with
    | nil => exact .nil
    | cons hfirst _ ih =>
      rw [List.flatMap_cons, List.forall_mem_append] at hparams
      exact .cons (group_false_iff.mpr ⟨hfirst, hparams.1⟩) (ih hparams.2)

section Modes

variable {here there : Cursor}

/-- Groups are read without names if they are read with them and the parameters gathered bear
none. -/
theorem signatureGroups_false_iff {params : List Param} {results : List ValType} :
    signatureGroups (.empty false, here) = (.ok (), (⟨false, params, results⟩, there)) ↔
      signatureGroups (.empty true, here) = (.ok (), (⟨true, params, results⟩, there)) ∧
        ∀ param ∈ params, param.isNamed = false := by
  simp only [signatureGroups_eq_ok_iff, many_group_false_iff]
  constructor
  · rintro ⟨tokens, groups, ⟨hgroups, hparams⟩, horder, hpasses, hend, hgathered⟩
    cases hgathered
    exact ⟨⟨tokens, groups, hgroups, horder, hpasses, hend, rfl⟩, hparams⟩
  · rintro ⟨⟨tokens, groups, hgroups, horder, hpasses, hend, hgathered⟩, hparams⟩
    cases hgathered
    exact ⟨tokens, groups, ⟨hgroups, hparams⟩, horder, hpasses, hend, rfl⟩

/-- A signature is read without names if it is read with them and its parameters bear none. -/
theorem signature_false_iff {func : FunctionType} :
    Grammar.signature false here = (.ok func, there) ↔
      Grammar.signature true here = (.ok func, there) ∧
        ∀ param ∈ func.params, param.isNamed = false := by
  simp only [signature_eq_ok_iff, signatureGroups_false_iff]

/-- Reads a reference to a type, if one opens. -/
def optionalReference : Rule Cursor (Option Index) := fun here ↦
  if here.opensWith (.keyword "type") then typeReference here else (.ok none, here)

/-- A use of a function type is read where its reference, if any, and its signature are. -/
theorem typeUse_eq_ok_iff {allowsNames : Bool} {use : TypeUse} :
    Grammar.typeUse allowsNames here = (.ok use, there) ↔
      ∃ middle, optionalReference here = (.ok use.index, middle) ∧
        Grammar.signature allowsNames middle = (.ok use.func, there) := by
  have hbehind (index : Option Index) (middle : Cursor) :
      (Grammar.signature allowsNames >>= fun func ↦ pure (⟨index, func⟩ : TypeUse)) middle =
        (.ok use, there) ↔
          index = use.index ∧ Grammar.signature allowsNames middle = (.ok use.func, there) := by
    obtain ⟨index', func'⟩ := use
    rw [Step.bind_apply]
    rcases Grammar.signature allowsNames middle with ⟨error | func, stop⟩ <;> simp [and_assoc]
  cases hopens : here.opensWith (.keyword "type") with
  | false =>
    rw [typeUse_of_not_opensWith hopens, hbehind]
    simp [optionalReference, hopens]
  | true =>
    rw [typeUse_of_opensWith hopens, Step.bind_apply]
    rcases hreference : typeReference here with ⟨error | index, middle⟩
    · simp [optionalReference, hopens, hreference]
    · simp only [hbehind, optionalReference, hopens, if_true, hreference]
      simp

/-- A use of a function type is read without names if it is read with them and its parameters bear
none. -/
theorem typeUse_false_iff {use : TypeUse} :
    Grammar.typeUse false here = (.ok use, there) ↔
      Grammar.typeUse true here = (.ok use, there) ∧
        ∀ param ∈ use.func.params, param.isNamed = false := by
  simp only [typeUse_eq_ok_iff, signature_false_iff]
  constructor
  · rintro ⟨middle, hreference, hsignature, hparams⟩
    exact ⟨⟨middle, hreference, hsignature⟩, hparams⟩
  · rintro ⟨⟨middle, hreference, hsignature⟩, hparams⟩
    exact ⟨middle, hreference, hsignature, hparams⟩

end Modes

/-- The rules that forbid names are those that allow them, restricted to parameters without names.
From every place a use of a function type is read without names if and only if the same one is read
with them, to the same place, and its parameters bear none; and so are groups into an empty builder,
which then gathers the same. -/
theorem not_allowsNames_iff_anonymous (here there : Cursor) :
    (∀ use, Grammar.typeUse false here = (.ok use, there) ↔
      Grammar.typeUse true here = (.ok use, there) ∧
        ∀ param ∈ use.func.params, param.isNamed = false) ∧
    (∀ gathered, signatureGroups (.empty false, here) = (.ok (), (gathered, there)) ↔
      gathered.allowsNames = false ∧
        signatureGroups (.empty true, here) =
          (.ok (), ({ gathered with allowsNames := true }, there)) ∧
        ∀ param ∈ gathered.params, param.isNamed = false) := by
  refine ⟨fun use ↦ typeUse_false_iff, ?_⟩
  rintro ⟨allowed, params, results⟩
  constructor
  · intro h
    obtain ⟨_, _, -, -, -, -, hgathered⟩ := signatureGroups_eq_ok_iff.mp h
    cases hgathered
    exact ⟨rfl, signatureGroups_false_iff.mp h⟩
  · rintro ⟨rfl, h⟩
    exact signatureGroups_false_iff.mpr h

end WatTypes.Grammar
