import WatTypes.Tree

/-!
# Groups of signatures

A signature is written as a sequence of groups in parentheses: any number of parameters without
names, a single parameter with a name, or any number of results. A signature denotes the parameters
and the results of its groups in order (`FunctionType.ofGroups`); groups are in order if no group
of parameters, not even an empty one, comes behind a group that holds a result
(`SignatureGroup.InOrder`).
-/

set_option autoImplicit false
set_option relaxedAutoImplicit false

namespace WatTypes

/-- A group of a signature. -/
inductive SignatureGroup where
  /-- Parameters without names. -/
  | anonymous (types : List ValType)
  /-- A single parameter with a name. -/
  | named (param : Param)
  /-- Results. -/
  | results (types : List ValType)
deriving DecidableEq, Repr

namespace SignatureGroup

/-- The parameters of a group. -/
def params : SignatureGroup → List Param
  | .anonymous types => types.map .anonymous
  | .named param => [param]
  | .results _ => []

/-- The types of the results of a group. -/
def resultTypes : SignatureGroup → List ValType
  | .results types => types
  | _ => []

/-- Whether a group is one of results. -/
def isResults : SignatureGroup → Bool
  | .results _ => true
  | _ => false

/-- Whether all groups behind one that holds a result are groups of results too. -/
def InOrder (groups : List SignatureGroup) : Prop :=
  groups.Pairwise fun first second ↦ first.resultTypes ≠ [] → second.isResults

end SignatureGroup

/-- The signature that a sequence of groups denotes. -/
def FunctionType.ofGroups (groups : List SignatureGroup) : FunctionType :=
  ⟨groups.flatMap SignatureGroup.params, groups.flatMap SignatureGroup.resultTypes⟩

/-! ### The shortest groups -/

namespace SignatureGroup

/-- Puts a parameter without a name in front: into the first group, if that is of its kind. -/
def consAnonymous (ty : ValType) : List SignatureGroup → List SignatureGroup
  | .anonymous types :: groups => .anonymous (ty :: types) :: groups
  | groups => .anonymous [ty] :: groups

/-- The groups of a list of parameters. -/
def ofParams : List Param → List SignatureGroup
  | [] => []
  | param :: params =>
    if param.isNamed then .named param :: ofParams params
    else consAnonymous param.ty (ofParams params)

/-- The group of a list of results, unless there are none. -/
def ofResults (types : List ValType) : List SignatureGroup :=
  if types.isEmpty then [] else [.results types]

theorem flatMap_params_consAnonymous (ty : ValType) (groups : List SignatureGroup) :
    (consAnonymous ty groups).flatMap params = .anonymous ty :: groups.flatMap params := by
  fun_cases consAnonymous ty groups <;> simp [params]

theorem flatMap_resultTypes_consAnonymous (ty : ValType) (groups : List SignatureGroup) :
    (consAnonymous ty groups).flatMap resultTypes = groups.flatMap resultTypes := by
  fun_cases consAnonymous ty groups <;> simp [resultTypes]

theorem flatMap_params_ofParams (list : List Param) : (ofParams list).flatMap params = list := by
  induction list with
  | nil => rfl
  | cons param others ih =>
    rw [ofParams]
    split
    · simp [params, ih]
    · rename_i h
      rw [flatMap_params_consAnonymous, ih]
      obtain ⟨ty, id, name⟩ := param
      cases id <;> cases name <;> simp_all [Param.isNamed, Param.anonymous]

theorem flatMap_resultTypes_ofParams (list : List Param) :
    (ofParams list).flatMap resultTypes = [] := by
  induction list with
  | nil => rfl
  | cons param others ih =>
    rw [ofParams]
    split
    · simp [resultTypes, ih]
    · rw [flatMap_resultTypes_consAnonymous, ih]

end SignatureGroup

/-- The groups that a signature is written in: one for each run of parameters without names, one
for each parameter with a name, and a last one for the results, if there are any. -/
def FunctionType.groups (ty : FunctionType) : List SignatureGroup :=
  SignatureGroup.ofParams ty.params ++ SignatureGroup.ofResults ty.results

/-- A signature is what its groups denote. -/
theorem FunctionType.ofGroups_groups (ty : FunctionType) : ofGroups ty.groups = ty := by
  obtain ⟨params, results⟩ := ty
  have resultsOf : (SignatureGroup.ofResults results).flatMap SignatureGroup.params = [] ∧
      (SignatureGroup.ofResults results).flatMap SignatureGroup.resultTypes = results := by
    rw [SignatureGroup.ofResults]
    split <;> simp_all [SignatureGroup.params, SignatureGroup.resultTypes]
  simp [ofGroups, groups, SignatureGroup.flatMap_params_ofParams,
    SignatureGroup.flatMap_resultTypes_ofParams, resultsOf]

end WatTypes
