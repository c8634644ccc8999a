import Mathlib.Data.List.SplitBy
import WatTypes.Proofs.AnonymousSignatures
import WatTypes.Proofs.Nesting
import WatTypes.Proofs.RoundTrip

/-!
# Signatures are written in the fewest groups

A signature is written as one group for each maximal run of parameters without names, one for each
parameter with a name, and a last one for the results, if there are any (`FunctionType.groups_eq`).
Each group that is read adds at most one to these: whatever groups denote the same signature, up to
spans, there are at least as many of them (`length_groups_ofGroups_le`). How many groups a text has
is told by its outermost parentheses (`Lexeme.outermost`). So the text of a signature is its groups,
and no sequence of groups that is read as the signature is shorter (`shortest_signature`).
-/

set_option autoImplicit false
set_option relaxedAutoImplicit false

namespace WatTypes

/-! ### Runs of parameters -/

/-- Whether neighbouring parameters share a group: neither of them bears a name. -/
def Param.sharesGroup (first second : Param) : Bool := !first.isNamed && !second.isNamed

namespace SignatureGroup

/-- The group of a run of parameters, which is one with a name, or some without. -/
def ofRun : List Param → SignatureGroup
  | [param] => if param.isNamed then .named param else .anonymous [param.ty]
  | run => .anonymous (run.map Param.ty)

/-- Whether a group is one of parameters without names. -/
def isAnonymous : SignatureGroup → Bool
  | .anonymous _ => true
  | _ => false

/-- A group holds a run of parameters. -/
inductive IsRun : SignatureGroup → Prop
  /-- Some parameters without names. -/
  | anonymous (first : ValType) (others : List ValType) : IsRun (.anonymous (first :: others))
  /-- A parameter with a name. -/
  | named {param : Param} : param.isNamed = true → IsRun (.named param)

/-- Groups hold the runs of their parameters: no two neighbours could be one. -/
structure AreRuns (groups : List SignatureGroup) : Prop where
  /-- Each group holds a run. -/
  isRun : ∀ group ∈ groups, group.IsRun
  /-- Behind parameters without names there are none. -/
  apart : groups.IsChain fun first second ↦ first.isAnonymous = false ∨ second.isAnonymous = false

variable {groups : List SignatureGroup}

/-- A parameter with a name in front is a run of its own. -/
theorem AreRuns.named {param : Param} (h : AreRuns groups) (hnamed : param.isNamed = true) :
    AreRuns (.named param :: groups) where
  isRun := List.forall_mem_cons.mpr ⟨.named hnamed, h.isRun⟩
  apart := List.isChain_cons.mpr ⟨fun _ _ ↦ .inl rfl, h.apart⟩

/-- A parameter without a name in front belongs to the first run, or is one of its own. -/
theorem AreRuns.consAnonymous (h : AreRuns groups) (ty : ValType) :
    AreRuns (consAnonymous ty groups) := by
  cases groups with
  | nil => exact ⟨by simpa [SignatureGroup.consAnonymous] using .anonymous ty [], .singleton _⟩
  | cons first others =>
    obtain ⟨hfirst, hothers⟩ := List.forall_mem_cons.mp h.isRun
    cases hfirst with
    | anonymous head tail =>
      refine ⟨List.forall_mem_cons.mpr ⟨.anonymous ty (head :: tail), hothers⟩, ?_⟩
      exact List.isChain_cons.mpr (List.isChain_cons.mp h.apart)
    | named hnamed =>
      refine ⟨List.forall_mem_cons.mpr ⟨.anonymous ty [], h.isRun⟩, ?_⟩
      exact List.isChain_cons_cons.mpr ⟨.inr rfl, h.apart⟩

/-- The groups of parameters hold their runs. -/
theorem areRuns_ofParams (params : List Param) : AreRuns (ofParams params) := by
  induction params with
  | nil => exact ⟨fun _ h ↦ (List.not_mem_nil h).elim, .nil⟩
  | cons param others ih =>
    rw [ofParams]
    split
    · rename_i hnamed
      exact ih.named hnamed
    · exact ih.consAnonymous param.ty

/-- The group of the parameters that a run holds is the run. -/
theorem IsRun.ofRun_params {group : SignatureGroup} (h : group.IsRun) :
    ofRun group.params = group := by
  cases h with
  | anonymous first others =>
    have htypes : ((first :: others).map Param.anonymous).map Param.ty = first :: others := by
      rw [List.map_map]
      exact List.map_id _
    cases others with
    | nil => rfl
    | cons second others => exact congrArg SignatureGroup.anonymous htypes
  | named hnamed => simp [params, ofRun, hnamed]

/-- A run is not empty. -/
theorem IsRun.params_ne_nil {group : SignatureGroup} (h : group.IsRun) : group.params ≠ [] := by
  cases h <;> simp [params]

/-- Neighbours in a run share its group. -/
theorem IsRun.isChain_params {group : SignatureGroup} (h : group.IsRun) :
    group.params.IsChain fun first second ↦ first.sharesGroup second = true := by
  cases h with
  | named _ => exact .singleton _
  | anonymous first others =>
    refine List.Pairwise.isChain (List.pairwise_map.mpr (List.pairwise_of_forall ?_))
    exact fun _ _ ↦ rfl

/-- A run that is not one of parameters without names holds names only. -/
theorem IsRun.isNamed {group : SignatureGroup} (h : group.IsRun)
    (hkind : group.isAnonymous = false) {param : Param} (hparam : param ∈ group.params) :
    param.isNamed = true := by
  cases h with
  | anonymous => cases hkind
  | named hnamed => rwa [List.mem_singleton.mp hparam]

/-- A list of parameters, split between neighbours that do not share a group, falls into the runs
that its groups hold. -/
theorem AreRuns.splitBy_flatMap (h : AreRuns groups) :
    (groups.flatMap params).splitBy Param.sharesGroup = groups.map params := by
  rw [List.flatMap_def]
  refine List.splitBy_flatten ?_ (List.forall_mem_map.mpr fun group hgroup ↦
    (h.isRun group hgroup).isChain_params) ((List.isChain_map params).mpr ?_)
  · intro hmem
    obtain ⟨group, hgroup, hnone⟩ := List.mem_map.mp hmem
    exact (h.isRun group hgroup).params_ne_nil hnone
  · refine h.apart.imp_of_mem_imp fun first second hfirst hsecond hapart ↦ ?_
    have hfirst := h.isRun first hfirst
    have hsecond := h.isRun second hsecond
    refine ⟨hfirst.params_ne_nil, hsecond.params_ne_nil, ?_⟩
    rcases hapart with hnamed | hnamed
    · simp [Param.sharesGroup, hfirst.isNamed hnamed (List.getLast_mem _)]
    · simp [Param.sharesGroup, hsecond.isNamed hnamed (List.head_mem _)]

/-- The groups of parameters are those of their runs. -/
theorem ofParams_eq (params : List Param) :
    ofParams params = (params.splitBy Param.sharesGroup).map ofRun := by
  have hruns := areRuns_ofParams params
  have hsplit : params.splitBy Param.sharesGroup = (ofParams params).map SignatureGroup.params := by
    rw [← hruns.splitBy_flatMap, flatMap_params_ofParams]
  have hback : ∀ group ∈ ofParams params, (ofRun ∘ SignatureGroup.params) group = id group :=
    fun group hgroup ↦ (hruns.isRun group hgroup).ofRun_params
  rw [hsplit, List.map_map, List.map_congr_left hback, List.map_id]

/-- No group of parameters is empty. -/
theorem params_ne_nil_of_mem_ofParams {params : List Param} {group : SignatureGroup}
    (h : group ∈ ofParams params) : group.params ≠ [] :=
  ((areRuns_ofParams params).isRun group h).params_ne_nil

/-! ### The fewest groups -/

/-- A parameter without a name in front adds at most one group. -/
theorem length_consAnonymous_le (ty : ValType) (groups : List SignatureGroup) :
    (consAnonymous ty groups).length ≤ groups.length + 1 := by
  fun_cases consAnonymous ty groups <;> simp

/-- Some parameters without names in front are in the first group, and behind it there are no more
groups than without them. -/
theorem exists_ofParams_anonymous (first : ValType) (others : List ValType) (params : List Param) :
    ∃ types groups, ofParams ((first :: others).map .anonymous ++ params) =
      .anonymous types :: groups ∧ groups.length ≤ (ofParams params).length := by
  induction others generalizing first with
  | nil =>
    change ∃ types groups, consAnonymous first (ofParams params) = .anonymous types :: groups ∧ _
    fun_cases consAnonymous first (ofParams params) with
    | case1 types groups => exact ⟨_, groups, rfl, by simp_all⟩
    | case2 groups _ => exact ⟨_, _, rfl, le_rfl⟩
  | cons second others ih =>
    obtain ⟨types, groups, hgroups, hlength⟩ := ih second
    refine ⟨first :: types, groups, ?_, hlength⟩
    change consAnonymous first (ofParams ((second :: others).map .anonymous ++ params)) = _
    rw [hgroups]
    rfl

/-- The parameters of a group in front add at most one group. -/
theorem length_ofParams_append_le (group : SignatureGroup) (params : List Param) :
    (ofParams (group.params ++ params)).length ≤ (ofParams params).length + 1 := by
  cases group with
  | results types => exact Nat.le_succ _
  | named param =>
    change (if param.isNamed then _ else _ : List SignatureGroup).length ≤ _
    split
    · exact le_rfl
    · exact length_consAnonymous_le _ _
  | anonymous types =>
    cases types with
    | nil => exact Nat.le_succ _
    | cons first others =>
      obtain ⟨types, groups, hgroups, hlength⟩ := exists_ofParams_anonymous first others params
      change (ofParams ((first :: others).map .anonymous ++ params)).length ≤ _
      rw [hgroups]
      exact Nat.succ_le_succ hlength

/-- Results are in one group at most. -/
theorem length_ofResults_le (types : List ValType) : (ofResults types).length ≤ 1 := by
  rw [ofResults]
  split <;> simp

end SignatureGroup

namespace FunctionType

open SignatureGroup

/-- The groups that a signature is written in: those of the runs of its parameters, and one of its
results, if there are any. -/
theorem groups_eq (ty : FunctionType) :
    ty.groups = (ty.params.splitBy Param.sharesGroup).map ofRun ++
      if ty.results = [] then [] else [.results ty.results] := by
  simp only [groups, ofParams_eq, ofResults, List.isEmpty_iff]

/-- No group that a signature is written in is empty. -/
theorem ne_nil_of_mem_groups {ty : FunctionType} {group : SignatureGroup} (h : group ∈ ty.groups) :
    group.params ≠ [] ∨ group.resultTypes ≠ [] := by
  rcases List.mem_append.mp h with hparams | hresults
  · exact .inl (params_ne_nil_of_mem_ofParams hparams)
  · rw [ofResults] at hresults
    split at hresults
    · cases hresults
    · rename_i hne
      rw [List.mem_singleton.mp hresults]
      exact .inr fun hnone ↦ hne (List.isEmpty_iff.mpr hnone)

/-- A signature that groups denote is written in no more groups. Results in front of others may make
their one group anew, but add no group of parameters. -/
theorem length_groups_ofGroups_le (groups : List SignatureGroup) :
    (ofGroups groups).groups.length ≤ groups.length := by
  have hsplit (groups : List SignatureGroup) : (ofGroups groups).groups.length =
      (ofParams (groups.flatMap SignatureGroup.params)).length +
        (ofResults (groups.flatMap resultTypes)).length := List.length_append
  induction groups with
  | nil => exact le_rfl
  | cons group others ih =>
    rw [hsplit] at ih ⊢
    rw [List.flatMap_cons, List.flatMap_cons, List.length_cons]
    have hparams := length_ofParams_append_le group (others.flatMap SignatureGroup.params)
    cases hkind : group with
    | results types =>
      have hresults := length_ofResults_le (types ++ others.flatMap resultTypes)
      simp only [SignatureGroup.params, resultTypes, List.nil_append]
      omega
    | _ =>
      rw [hkind] at hparams
      simp only [resultTypes, List.nil_append]
      omega

end FunctionType

/-! ### Counting groups -/

namespace Lexeme

/-- The number of parentheses that open outside of all others, seen from a depth. -/
def outermost : Nat → List Lexeme → Nat
  | _, [] => 0
  | depth, .opening :: rest => outermost (depth + 1) rest + if depth = 0 then 1 else 0
  | depth, .closing :: rest => outermost (depth - 1) rest
  | depth, _ :: rest => outermost depth rest

/-- Behind balanced lexemes the depth is what it was. -/
theorem Balanced.outermost_append {lexemes : List Lexeme} (h : Balanced lexemes) (depth : Nat)
    (rest : List Lexeme) :
    outermost depth (lexemes ++ rest) = outermost depth lexemes + outermost depth rest := by
  induction h generalizing depth rest with
  | nil => simp [outermost]
  | @plain lexeme hplain =>
    obtain ⟨hopening, hclosing, -⟩ := hplain
    cases lexeme <;> simp_all [outermost]
  | append _ _ ihfirst ihsecond =>
    rw [List.append_assoc, ihfirst, ihsecond, ihfirst depth, Nat.add_assoc]
  | parenthesised _ ih =>
    simp only [Lexeme.parenthesised, List.cons_append, List.append_assoc, List.nil_append,
      outermost, ih, Nat.add_sub_cancel]
    omega

/-- Inside of parentheses none are outermost. -/
theorem Balanced.outermost_succ {lexemes : List Lexeme} (h : Balanced lexemes) (depth : Nat) :
    outermost (depth + 1) lexemes = 0 := by
  induction h generalizing depth with
  | nil => rfl
  | @plain lexeme hplain =>
    obtain ⟨hopening, hclosing, -⟩ := hplain
    cases lexeme <;> simp_all [outermost]
  | append hfirst _ ihfirst ihsecond => rw [hfirst.outermost_append, ihfirst, ihsecond]
  | parenthesised hinner ih =>
    simp [Lexeme.parenthesised, outermost, hinner.outermost_append, ih]

/-- Parentheses in front are one more. -/
theorem Balanced.outermost_parenthesised_append {inside : List Lexeme} (h : Balanced inside)
    (rest : List Lexeme) :
    outermost 0 (Lexeme.parenthesised inside ++ rest) = outermost 0 rest + 1 := by
  rw [h.parenthesised.outermost_append]
  simp [Lexeme.parenthesised, outermost, h.outermost_append, h.outermost_succ, Nat.add_comm]

/-! ### The text of groups -/

/-- Lexemes on one line that go on behind one of them. -/
theorem spaced_append (before : List Lexeme) (last next : Lexeme) (rest : List Lexeme) :
    spaced (before ++ last :: next :: rest) =
      spaced (before ++ [last]) ++ separator last next ++ spaced (next :: rest) := by
  induction before with
  | nil => rfl
  | cons first others ih =>
    cases others with
    | nil => simp [spaced, String.append_assoc]
    | cons second others =>
      simp only [List.cons_append, spaced, String.append_assoc] at ih ⊢
      rw [ih]

/-- What stands in parentheses is separated from what stands in others by a single space. -/
theorem spaced_parenthesised_append (inside : List Lexeme) (next : List Lexeme)
    (rest : List Lexeme) :
    spaced (parenthesised inside ++ (parenthesised next ++ rest)) =
      spaced (parenthesised inside) ++ " " ++ spaced (parenthesised next ++ rest) := by
  have htext := spaced_append (.opening :: inside) .closing .opening (next ++ .closing :: rest)
  rw [show separator .closing .opening = " " from rfl] at htext
  simpa [parenthesised] using htext

end Lexeme

namespace FunctionType

open Lexeme

/-- The lexemes of groups are the groups, and as many as there are. -/
theorem outermost_flatMap_lexemes (groups : List SignatureGroup) :
    outermost 0 (groups.flatMap SignatureGroup.lexemes) = groups.length := by
  induction groups with
  | nil => rfl
  | cons group others ih =>
    obtain ⟨inside, hinside, hlexemes⟩ := group.exists_inside
    rw [List.flatMap_cons, hlexemes, hinside.outermost_parenthesised_append, ih, List.length_cons]

/-- The text of a signature is the texts of its groups, with single spaces between them. -/
theorem spaced_lexemes (ty : FunctionType) : spaced ty.lexemes =
    String.intercalate " " (ty.groups.map fun group ↦ spaced group.lexemes) := by
  rw [lexemes]
  induction ty.groups with
  | nil => rfl
  | cons group others ih =>
    cases others with
    | nil => simp
    | cons next others =>
      obtain ⟨inside, -, hlexemes⟩ := group.exists_inside
      obtain ⟨behind, -, hnext⟩ := next.exists_inside
      rw [List.map_cons, List.map_cons, String.intercalate_cons_cons]
      rw [List.map_cons] at ih
      rw [← ih, List.flatMap_cons, List.flatMap_cons, hlexemes, hnext, spaced_parenthesised_append]

end FunctionType

namespace Grammar

open Phrase Lexeme

/-- A group is written in parentheses around balanced lexemes. -/
theorem exists_inside_of_group {allowsNames : Bool} {tokens : List Token} {group : SignatureGroup}
    (h : Derivation.group allowsNames tokens group) :
    ∃ inside, Balanced inside ∧ lexemesOf tokens = parenthesised inside := by
  obtain ⟨opening, closing, inner, rfl, hopening, hclosing, hinside⟩ := parens_groupInside_iff.mpr h
  have hbalanced : IsBalanced (groupInside allowsNames) :=
    (((isBalanced_word "param").both ((isBalanced_valType.many.map _).either
      ((isBalanced_namedParam.map _).only _))).map _).either
        (((isBalanced_word "result").both isBalanced_valType.many).map _)
  exact ⟨_, hbalanced hinside, lexemesOf_parens inner hopening hclosing⟩

/-- Tokens of groups have as many outermost parentheses as there are groups. -/
theorem outermost_of_many {allowsNames : Bool} {tokens : List Token} {groups : List SignatureGroup}
    (h : Many (Derivation.group allowsNames) tokens groups) :
    outermost 0 (lexemesOf tokens) = groups.length := by
  induction h with
  | nil => rfl
  | cons hfirst _ ih =>
    obtain ⟨inside, hinside, hlexemes⟩ := exists_inside_of_group hfirst
    rw [lexemesOf_append, hlexemes, hinside.outermost_parenthesised_append, ih, List.length_cons]

/-- Assumes: a signature that can be written. Its text is read to the end as the signature, up to
spans, and has as many groups as the signature is written in. -/
theorem exists_read_groups {ty : FunctionType} (h : ty.WellFormed) (file : String) :
    ∃ tokens gathered there, TokenList.read file none (spaced ty.lexemes) = .ok tokens ∧
      signatureGroups (.empty true, .start tokens) = (.ok (), (gathered, there)) ∧
        there.ahead = [] ∧ gathered.finish.withoutSpans = ty.withoutSpans ∧
          outermost 0 (lexemesOf tokens.body) = ty.groups.length := by
  have hnests := ((writes_signature ty).balanced (isBalanced_signature true)).nests_none 0
  obtain ⟨tokens, hread, hlexemes⟩ :=
    read_of_layout file (laysOut_spaced (areLegible_signature h)).layout hnests
  obtain ⟨_, ⟨groups, ⟨hgroups, horder⟩, rfl⟩, hsame⟩ := writes_signature ty tokens.body hlexemes
  have hahead : (Cursor.start tokens).ahead = tokens.body ++ [] :=
    (List.append_nil tokens.body).symm
  obtain ⟨there, hpasses, hend⟩ := Cursor.exists_passes hahead
  have hfollow : there.opensSignatureGroup = false := by
    simp [Cursor.opensSignatureGroup, Cursor.opensWith, Cursor.current, Cursor.tokenAt,
      Cursor.endToken, hend]
  refine ⟨tokens, gatheredFrom true groups, there, hread,
    signatureGroups_eq_ok_iff.mpr ⟨_, groups, hgroups, horder, hpasses, hfollow, rfl⟩, hend, hsame,
    ?_⟩
  rw [hlexemes, FunctionType.lexemes, FunctionType.outermost_flatMap_lexemes]

/-- Groups that are read to the end as a signature, up to spans, are at least as many as the
signature is written in. -/
theorem length_groups_le_of_read {ty : FunctionType} {allowsNames : Bool} {here there : Cursor}
    {gathered : SignatureBuilder}
    (hrun : signatureGroups (.empty allowsNames, here) = (.ok (), (gathered, there)))
    (hend : there.ahead = []) (hsame : gathered.finish.withoutSpans = ty.withoutSpans) :
    ty.groups.length ≤ outermost 0 (lexemesOf here.ahead) := by
  obtain ⟨tokens, groups, hgroups, -, hpasses, -, rfl⟩ := signatureGroups_eq_ok_iff.mp hrun
  have hahead : here.ahead = tokens := by rw [hpasses.ahead, hend, List.append_nil]
  have hlength (func : FunctionType) : func.withoutSpans.groups.length = func.groups.length := by
    rw [FunctionType.groups_withoutSpans, List.length_map]
  calc ty.groups.length
      = (FunctionType.ofGroups groups).withoutSpans.groups.length := by rw [← hlength, ← hsame]; rfl
    _ = (FunctionType.ofGroups groups).groups.length := hlength _
    _ ≤ groups.length := FunctionType.length_groups_ofGroups_le groups
    _ = outermost 0 (lexemesOf here.ahead) := by rw [hahead, outermost_of_many hgroups]

end Grammar

open Grammar Lexeme in
/-- Assumes: a signature that can be written. Its text is the texts of its groups, with single
spaces between them: one group for each maximal run of parameters without names, one for each
parameter with a name, and a last one for the results, if there are any. None is empty. The text
is read to the end as the signature, up to spans; and whatever sequence of groups is read so,
with or without names allowed, has at least as many groups. -/
theorem shortest_signature (ty : FunctionType) (h : ty.WellFormed) :
    spaced ty.lexemes =
      String.intercalate " " (ty.groups.map fun group ↦ spaced group.lexemes) ∧
    (ty.groups = (ty.params.splitBy Param.sharesGroup).map SignatureGroup.ofRun ++
      if ty.results = [] then [] else [.results ty.results]) ∧
    (∀ group ∈ ty.groups, group.params ≠ [] ∨ group.resultTypes ≠ []) ∧
    (∀ file, ∃ tokens gathered there, TokenList.read file none (spaced ty.lexemes) = .ok tokens ∧
      signatureGroups (.empty true, .start tokens) = (.ok (), (gathered, there)) ∧
        there.ahead = [] ∧ gathered.finish.withoutSpans = ty.withoutSpans ∧
          outermost 0 (lexemesOf tokens.body) = ty.groups.length) ∧
    ∀ allowsNames here gathered there,
      signatureGroups (.empty allowsNames, here) = (.ok (), (gathered, there)) →
        there.ahead = [] → gathered.finish.withoutSpans = ty.withoutSpans →
          ty.groups.length ≤ outermost 0 (lexemesOf here.ahead) :=
  ⟨ty.spaced_lexemes, ty.groups_eq, fun _ ↦ FunctionType.ne_nil_of_mem_groups,
    exists_read_groups h, fun _ _ _ _ ↦ length_groups_le_of_read⟩

/-- A signature with a name between parameters without names. -/
def mixedSignature : FunctionType :=
  ⟨[.anonymous .i32, .anonymous .v128, ⟨.f64, some ⟨"x", .single "" .first⟩, none⟩,
    .anonymous .i64], [.funcref, .i32]⟩

open Grammar Lexeme in
theorem shortest_signature_mixedSignature : mixedSignature.WellFormed ∧
    spaced mixedSignature.lexemes = "(param i32 v128) (param $x f64) (param i64) " ++
      "(result funcref i32)" ∧
    mixedSignature.groups.length = 4 ∧
    ∃ tokens, TokenList.read "" none (spaced mixedSignature.lexemes) = .ok tokens ∧
      outermost 0 (lexemesOf tokens.body) = 4 := by
  have h : mixedSignature.WellFormed := by decide
  obtain ⟨-, -, -, hread, -⟩ := shortest_signature mixedSignature h
  obtain ⟨tokens, _, _, htokens, -, -, -, hcount⟩ := hread ""
  exact ⟨h, by decide +kernel, rfl, tokens, htokens, hcount⟩

end WatTypes
