import WatTypes.Proofs.Denotation

/-!
# Which lexemes nest no deeper than others

Lexemes nest no deeper than others if they nest wherever those do (`Lexeme.NoDeeper`). Leaving out
parentheses goes no deeper, because depths are reached one after the other
(`Lexeme.Balanced.noDeeper_parenthesised`). Writing the groups of a signature anew goes no deeper
either, because each group that is written stands for one that was there (`noDeeper_groups`).
-/

set_option autoImplicit false
set_option relaxedAutoImplicit false

namespace WatTypes

/-! ### Comparing depths -/

namespace Lexeme

/-- Lexemes nest no deeper than others if they nest wherever those do. -/
def NoDeeper (lexemes others : List Lexeme) : Prop :=
  ∀ ⦃limit depth⦄, Nests limit depth others → Nests limit depth lexemes

section

variable {first second before behind inner outer : List Lexeme}

theorem NoDeeper.refl (lexemes : List Lexeme) : NoDeeper lexemes lexemes := fun _ _ h ↦ h

theorem NoDeeper.trans (hfirst : NoDeeper first second) (hsecond : NoDeeper second outer) :
    NoDeeper first outer :=
  fun _ _ h ↦ hfirst (hsecond h)

/-- Lexemes without parentheses nest no deeper than others, whatever these are. -/
theorem noDeeper_of_forall_isPlain (h : ∀ lexeme ∈ first, lexeme.IsPlain) : NoDeeper first second :=
  fun _ _ _ ↦ nests_of_forall_isPlain h

theorem NoDeeper.append (hbalanced : Balanced before) (hfirst : NoDeeper first before)
    (hsecond : NoDeeper second behind) : NoDeeper (first ++ second) (before ++ behind) := by
  intro limit depth hnests
  obtain ⟨hbefore, hbehind⟩ := hbalanced.nests_append_iff.mp hnests
  exact (hfirst hbefore).append (hsecond hbehind)

/-- What stands behind balanced lexemes nests no deeper than all of them. -/
theorem Balanced.noDeeper_append (h : Balanced first) (second : List Lexeme) :
    NoDeeper second (first ++ second) :=
  fun _ _ hnests ↦ (h.nests_append_iff.mp hnests).2

theorem NoDeeper.parenthesised (h : NoDeeper inner outer) :
    NoDeeper (Lexeme.parenthesised inner) (Lexeme.parenthesised outer) := by
  intro limit depth hnests
  obtain ⟨hadmits, houter⟩ := nests_parenthesised_iff.mp hnests
  exact (h houter).parenthesised hadmits

/-- Balanced lexemes that nest at some depth nest one less deep, if a parenthesis is admitted there:
depths are reached one after the other. -/
theorem Balanced.nests_of_nests_succ (h : Balanced inner) {limit : Option NestingLimit}
    {depth : Nat} (hadmits : NestingLimit.Admits limit (depth + 1))
    (hnests : Nests limit (depth + 1) inner) : Nests limit depth inner := by
  induction h generalizing depth with
  | nil => exact nests_nil
  | plain hplain => exact nests_of_isPlain hplain
  | append hfirst _ ihfirst ihsecond =>
    obtain ⟨hbefore, hbehind⟩ := hfirst.nests_append_iff.mp hnests
    exact (ihfirst hadmits hbefore).append (ihsecond hadmits hbehind)
  | parenthesised _ ih =>
    obtain ⟨hdeeper, hinner⟩ := nests_parenthesised_iff.mp hnests
    exact (ih hdeeper hinner).parenthesised hadmits

/-- Parentheses can be left out. -/
theorem Balanced.noDeeper_parenthesised (h : Balanced inner) :
    NoDeeper inner (Lexeme.parenthesised inner) := by
  intro limit depth hnests
  obtain ⟨hadmits, hinner⟩ := nests_parenthesised_iff.mp hnests
  exact h.nests_of_nests_succ hadmits hinner

/-- Assumes: each item has balanced lexemes. All nest one after the other if each does. -/
theorem nests_flatMap_iff {ι : Type} {items : List ι} {lexemes : ι → List Lexeme}
    (h : ∀ item ∈ items, Balanced (lexemes item)) {limit : Option NestingLimit} {depth : Nat} :
    Nests limit depth (items.flatMap lexemes) ↔
      ∀ item ∈ items, Nests limit depth (lexemes item) := by
  induction items with
  | nil => exact ⟨fun _ _ hmem ↦ (List.not_mem_nil hmem).elim, fun _ ↦ nests_nil⟩
  | cons first others ih =>
    obtain ⟨hfirst, hothers⟩ := List.forall_mem_cons.mp h
    rw [List.flatMap_cons, hfirst.nests_append_iff, ih hothers, List.forall_mem_cons]

end

end Lexeme

/-! ### Groups of signatures -/

open Grammar Lexeme

theorem balanced_id (id : Option Id) : Balanced (Id.optionalLexemes id) := by
  cases id with
  | none => exact .nil
  | some id => exact .plain (by simp [IsPlain])

theorem balanced_displayName (name : Option DisplayName) :
    Balanced (DisplayName.optionalLexemes name) := by
  cases name with
  | none => exact .nil
  | some name =>
    have hinner : Balanced ([.annotationHead "name"] ++ [.string name.name]) :=
      .append (.plain (by simp [IsPlain])) (.plain (by simp [IsPlain]))
    exact .parenthesised hinner

theorem isPlain_of_mem_types {types : List ValType} {lexeme : Lexeme}
    (h : lexeme ∈ types.flatMap ValType.lexemes) : lexeme.IsPlain := by
  obtain ⟨ty, -, hmem⟩ := List.mem_flatMap.mp h
  rw [List.mem_singleton.mp hmem]
  simp [IsPlain]

/-- A group that names nothing nests no deeper than another one. -/
theorem SignatureGroup.noDeeper_of_types (word : String) (types : List ValType)
    (group : SignatureGroup) :
    NoDeeper (parenthesised (.keyword word :: types.flatMap ValType.lexemes)) group.lexemes := by
  have hplain : ∀ lexeme ∈ Lexeme.keyword word :: types.flatMap ValType.lexemes,
      lexeme.IsPlain :=
    List.forall_mem_cons.mpr ⟨by simp [IsPlain], fun _ ↦ isPlain_of_mem_types⟩
  cases group <;> exact (noDeeper_of_forall_isPlain hplain).parenthesised

/-- A group is written in parentheses around balanced lexemes. -/
theorem SignatureGroup.exists_inside (group : SignatureGroup) :
    ∃ inside, Balanced inside ∧ group.lexemes = parenthesised inside := by
  have hword (word : String) : Balanced [.keyword word] := .plain (by simp [IsPlain])
  have htypes (types : List ValType) : Balanced (types.flatMap ValType.lexemes) :=
    balanced_of_forall_isPlain fun _ ↦ isPlain_of_mem_types
  cases group with
  | anonymous types => exact ⟨_, (hword "param").append (htypes types), rfl⟩
  | results types => exact ⟨_, (hword "result").append (htypes types), rfl⟩
  | named param =>
    exact ⟨_, .append (.append ((hword "param").append (balanced_id param.id))
      (balanced_displayName param.name)) (.plain (by simp [IsPlain])), rfl⟩

theorem SignatureGroup.balanced_lexemes (group : SignatureGroup) : Balanced group.lexemes := by
  obtain ⟨inside, hinside, hlexemes⟩ := group.exists_inside
  exact hlexemes ▸ .parenthesised hinside

/-- A group that the signature of groups is written in is one of these, or holds nothing but types
and nests no deeper than any of them. -/
theorem SignatureGroup.exists_noDeeper {groups : List SignatureGroup} {group : SignatureGroup}
    (h : group ∈ (FunctionType.ofGroups groups).groups) :
    ∃ source ∈ groups, NoDeeper group.lexemes source.lexemes := by
  have hsome : ∃ source, source ∈ groups := by
    refine List.exists_mem_of_ne_nil groups ?_
    rintro rfl
    exact List.not_mem_nil h
  obtain ⟨source, hsource⟩ := hsome
  cases hgroup : group with
  | anonymous types => exact ⟨source, hsource, noDeeper_of_types "param" types source⟩
  | results types => exact ⟨source, hsource, noDeeper_of_types "result" types source⟩
  | named param =>
    subst hgroup
    have hnamed : param.isNamed = true := isNamed_of_mem_groups h
    have hparam : param ∈ (FunctionType.ofGroups groups).params := by
      rw [← (FunctionType.ofGroups groups).ofGroups_groups]
      exact List.mem_flatMap.mpr ⟨_, h, List.mem_cons_self⟩
    obtain ⟨origin, horigin, hmem⟩ := List.mem_flatMap.mp hparam
    refine ⟨origin, horigin, ?_⟩
    cases origin with
    | anonymous types =>
      obtain ⟨ty, -, rfl⟩ := List.mem_map.mp hmem
      cases hnamed
    | named found =>
      rw [List.mem_singleton.mp hmem]
      exact .refl _
    | results types => exact (List.not_mem_nil hmem).elim

/-- The canonical lexemes of the signature that groups denote nest no deeper than the groups. -/
theorem noDeeper_groups (groups : List SignatureGroup) :
    NoDeeper (FunctionType.ofGroups groups).lexemes (groups.flatMap SignatureGroup.lexemes) := by
  have hbalanced (list : List SignatureGroup) (group : SignatureGroup) (_ : group ∈ list) :
      Balanced group.lexemes := group.balanced_lexemes
  intro limit depth hnests
  rw [nests_flatMap_iff (hbalanced groups)] at hnests
  rw [FunctionType.lexemes, nests_flatMap_iff (hbalanced _)]
  intro group hgroup
  obtain ⟨source, hsource, hdeeper⟩ := SignatureGroup.exists_noDeeper hgroup
  exact hdeeper (hnests source hsource)

end WatTypes
