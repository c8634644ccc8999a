import WatTypes.Proofs.Acceptance.Types
import WatTypes.Proofs.Reading.Signature

/-!
# Accepting signatures

Seen from a fixed builder, the rules of signatures accept chains of groups as long as no other group
follows. Groups in order are such a chain, and so the rule of signatures accepts every signature at
the end of a group (`accepts_signature`), and with it the uses of function types.
-/

set_option autoImplicit false
set_option relaxedAutoImplicit false

namespace WatTypes.Grammar

open Rule Phrase

variable {α : Type}

/-! ### Gathering -/

/-- What a rule does seen from a builder is what it does with it. -/
theorem eq_of_gathering {rule : SignatureRule α} {builder gathered : SignatureBuilder}
    {here there : Cursor} {answer : α}
    (h : gathering rule builder here = (.ok (answer, gathered), there)) :
    rule (builder, here) = (.ok answer, (gathered, there)) := by
  simp only [gathering] at h
  rcases hrun : rule (builder, here) with ⟨outcome, found, stop⟩
  rw [hrun] at h
  cases outcome with
  | error error => cases h
  | ok value =>
    cases h
    rfl

section Repetition

variable {more : Cursor → Bool} {rule : SignatureRule Unit}
  {phrase : SignatureBuilder → Phrase SignatureBuilder}

/-- Where nothing more comes nothing is gathered. -/
theorem gatherWhile_of_not_more {here : SignatureBuilder × Cursor} (hmore : more here.2 = false) :
    gatherWhile more rule here = (.ok (), here) := by
  have hloop : rounds more rule here = (.ok [], here) := Step.whileMore_of_not_more hmore
  rw [gatherWhile_eq, Step.bind_apply, hloop]
  rfl

/-- Assumes: more comes, and the rule answers nearer to the end of the input. Gathering goes on
behind it. -/
theorem gatherWhile_of_more {here there : SignatureBuilder × Cursor} (hmore : more here.2 = true)
    (hrun : rule here = (.ok (), there)) (hless : there.2.ahead.length < here.2.ahead.length) :
    gatherWhile more rule here = gatherWhile more rule there := by
  have hloop : rounds more rule here =
      if more here.2 then
        (rule >>= fun answer ↦ rounds more rule >>= fun answers ↦ pure (answer :: answers)) here
      else (.ok [], here) := by
    refine Step.whileMore_eq_bind fun answer stop hstep ↦ ?_
    rw [hrun] at hstep
    cases hstep
    exact hless
  rw [if_pos hmore] at hloop
  simp only [gatherWhile_eq, Step.bind_apply, hloop, hrun]
  rcases rounds more rule there with ⟨_ | _, _⟩ <;> rfl

/-- Assumes: more comes, and the rule fails. Gathering fails as the rule does. -/
theorem gatherWhile_of_error {here there : SignatureBuilder × Cursor} {error : GrammarError}
    (hmore : more here.2 = true) (hrun : rule here = (.error error, there)) :
    gatherWhile more rule here = (.error error, there) := by
  have hloop : rounds more rule here = (.error error, there) := by
    rw [rounds, Step.whileMore, if_pos hmore]
    simp only [hrun]
  simp only [gatherWhile_eq, Step.bind_apply, hloop]

/-- Assumes: a rule that from every builder accepts a phrase of at least one token that ends in a
builder, and a sign of more that such a phrase gives. Behind a chain of such phrases gathering goes
on from the builder in which the chain ends. -/
theorem gatherWhile_of_chain
    (h : ∀ builder, Accepts (gathering rule builder) (fun tokens result ↦
      phrase builder tokens result.2) anything)
    (hstarts : ∀ builder, Starts (phrase builder) fun here ↦ more here = true)
    (hnonempty : ∀ builder next, ¬ phrase builder [] next) {start stop : SignatureBuilder}
    {taken : List Token} {here there : Cursor} (hchain : Chain phrase start taken stop)
    (hpasses : Cursor.Passes taken here there) :
    gatherWhile more rule (start, here) = gatherWhile more rule (stop, there) := by
  induction hchain generalizing here with
  | nil => rw [hpasses.eq_of_same (.refl here)]
  | @cons start next stop first others hfirst _ ih =>
    obtain ⟨middle, hleft, hright⟩ := hpasses.split
    have hrun : gathering rule start here = (.ok ((), next), middle) := h start hfirst hleft trivial
    rw [gatherWhile_of_more (hstarts start hfirst hleft) (eq_of_gathering hrun)
      (length_ahead_lt_of_passes (hnonempty start) hfirst hleft), ih hright]

/-- Assumes: a rule that from every builder accepts a phrase of at least one token that ends in a
builder, and a sign of more that such a phrase gives. Repeating the rule accepts a chain of such
phrases before a place that does not give it. -/
theorem accepts_gatherWhile
    (h : ∀ builder, Accepts (gathering rule builder) (fun tokens result ↦
      phrase builder tokens result.2) anything)
    (hstarts : ∀ builder, Starts (phrase builder) fun here ↦ more here = true)
    (hnonempty : ∀ builder next, ¬ phrase builder [] next) (builder : SignatureBuilder) :
    Accepts (gathering (gatherWhile more rule) builder) (fun tokens result ↦
      Chain phrase builder tokens result.2) fun there ↦ more there = false := by
  rintro taken ⟨⟨⟩, stop⟩ here there hchain hpasses hfollow
  have hstop : gatherWhile more rule (builder, here) = (.ok (), (stop, there)) :=
    (gatherWhile_of_chain h hstarts hnonempty hchain hpasses).trans
      (gatherWhile_of_not_more hfollow)
  rw [gathering, hstop]

end Repetition

/-- The rule of a value type that is gathered accepts one. -/
theorem accepts_gatherType (add : SignatureBuilder → ValType → SignatureBuilder)
    (builder : SignatureBuilder) :
    Accepts (gathering (onCursor Grammar.valType >>= fun ty ↦
      gather fun gathered ↦ add gathered ty) builder)
      (fun tokens result ↦ typeStep add builder tokens result.2) anything := by
  rw [gathering_onCursor_bind]
  refine (accepts_valType.map fun ty ↦ ((), add builder ty)).narrow ?_
  rintro tokens ⟨⟨⟩, next⟩ ⟨ty, hty, rfl⟩
  exact ⟨ty, hty, rfl⟩

/-- Value types up to the end of a group are accepted one by one. -/
theorem accepts_gatherTypes (add : SignatureBuilder → ValType → SignatureBuilder)
    (builder : SignatureBuilder) :
    Accepts (gathering (gatherWhile (fun there ↦ !there.isGroupEnd) (onCursor Grammar.valType >>=
        fun ty ↦ gather fun gathered ↦ add gathered ty)) builder) (fun tokens result ↦
      ∃ types, Many Derivation.valType tokens types ∧ result.2 = types.foldl add builder)
      fun there ↦ there.isGroupEnd = true := by
  refine ((accepts_gatherWhile (accepts_gatherType add) ?_ (not_typeStep_nil add) builder).narrow
    fun tokens result ↦ chain_iff_exists_many.mpr).before fun there hend ↦ by simp [hend]
  rintro builder taken next here there ⟨ty, hty, -⟩ hpasses
  simp [starts_valType_inside hty hpasses]

/-! ### The inside of groups -/

/-- Before types and the end of a group nothing but reserved words shows. -/
theorem shows_of_types {taken : List Token} {types : List ValType} {here there : Cursor}
    (htypes : Many Derivation.valType taken types) (hpasses : Cursor.Passes taken here there)
    (hend : there.isGroupEnd = true) {element : Element}
    (helement : ∀ word, element ≠ .keyword word) : here.shows 0 element = false := by
  cases htypes with
  | nil =>
    rw [hpasses.eq_of_same (.refl here)] at hend
    exact Cursor.shows_of_isGroupEnd hend element
  | cons hfirst hothers =>
    obtain ⟨middle, hleft, -⟩ := hpasses.split
    obtain ⟨text, hlexeme⟩ := starts_valType hfirst hleft
    exact Cursor.shows_of_keyword hlexeme helement

/-- Behind the names of a group nothing but reserved words shows. -/
theorem shows_of_groupBehind {id : Option Id} {name : Option DisplayName} {taken : List Token}
    {group : SignatureGroup} {here there : Cursor} (hgroup : groupBehind id name taken group)
    (hpasses : Cursor.Passes taken here there) (hend : there.isGroupEnd = true)
    {element : Element} (helement : ∀ word, element ≠ .keyword word) :
    here.shows 0 element = false := by
  rw [groupBehind] at hgroup
  split at hgroup
  · obtain ⟨ty, hty, -⟩ := hgroup
    obtain ⟨text, hlexeme⟩ := starts_valType hty hpasses
    exact Cursor.shows_of_keyword hlexeme helement
  · obtain ⟨types, htypes, -⟩ := hgroup
    exact shows_of_types htypes hpasses hend helement

/-- The rule of the parameters behind a name accepts them at the end of a group. -/
theorem accepts_typesBehind (id : Option Id) (name : Option DisplayName)
    (builder : SignatureBuilder) :
    Accepts (gathering (typesBehind id name) builder) (fun tokens result ↦
      ∃ group, groupBehind id name tokens group ∧ result.2 = addGroup builder group)
      fun there ↦ there.isGroupEnd = true := by
  cases hnamed : id.isSome || name.isSome with
  | true =>
    rw [typesBehind, if_pos hnamed, gathering_onCursor_bind]
    refine (accepts_valType.anywhere.map fun ty ↦ ((), builder.addParam ⟨ty, id, name⟩)).narrow ?_
    rintro tokens ⟨⟨⟩, next⟩ ⟨group, hgroup, rfl⟩
    rw [groupBehind, if_pos hnamed] at hgroup
    obtain ⟨ty, hty, rfl⟩ := hgroup
    exact ⟨ty, hty, congrArg (Prod.mk ()) (addParam_eq_addGroup _ builder)⟩
  | false =>
    rw [typesBehind, if_neg (by simp [hnamed])]
    refine (accepts_gatherTypes (fun gathered ty ↦ gathered.addParam (.anonymous ty))
      builder).narrow ?_
    rintro tokens ⟨⟨⟩, next⟩ ⟨group, hgroup, rfl⟩
    rw [groupBehind, if_neg (by simp [hnamed])] at hgroup
    obtain ⟨types, htypes, rfl⟩ := hgroup
    exact ⟨types, htypes, (foldl_addParam_anonymous types builder).symm⟩

/-- A parameter with a name does not start at the end of a group. -/
theorem starts_namedParam : Starts Derivation.namedParam fun here ↦ here.isGroupEnd = false := by
  rintro taken param here there ⟨⟨parts, hparts, -⟩, -⟩ hpasses
  refine Starts.optional_both ?_ (Starts.optional_both ?_ starts_valType_inside) hparts hpasses
  · intro taken id here there hid hpasses
    have hshows : here.shows 0 .id = true := starts_single Token.id? hid hpasses
    exact Cursor.isGroupEnd_of_shows hshows
  · intro taken name here there hname hpasses
    exact Cursor.isGroupEnd_of_shows (starts_displayName hname hpasses)

/-- The inside of a group of parameters holds none, or it does not start at the end of a group. -/
theorem eq_nil_or_isGroupEnd_of_paramsInside {allowsNames : Bool} {taken : List Token}
    {group : SignatureGroup} {here there : Cursor} (h : paramsInside allowsNames taken group)
    (hpasses : Cursor.Passes taken here there) :
    taken = [] ∧ group = .anonymous [] ∨ here.isGroupEnd = false := by
  rcases h with ⟨types, htypes, rfl⟩ | ⟨⟨param, hparam, -⟩, -⟩
  · cases htypes with
    | nil => exact .inl ⟨rfl, rfl⟩
    | cons hfirst hothers =>
      obtain ⟨middle, hleft, -⟩ := hpasses.split
      exact .inr (starts_valType_inside hfirst hleft)
  · exact .inr (starts_namedParam hparam hpasses)

/-- The rule of the inside of a group of parameters accepts it at the end of the group. -/
theorem accepts_params (builder : SignatureBuilder) :
    Accepts (gathering Grammar.params builder) (fun tokens result ↦
      ∃ group, paramsInside builder.allowsNames tokens group ∧
        result.2 = addGroup builder group) fun there ↦ there.isGroupEnd = true := by
  rintro taken ⟨⟨⟩, _⟩ here there ⟨group, hinside, rfl⟩ hpasses hfollow
  rcases eq_nil_or_isGroupEnd_of_paramsInside hinside hpasses with ⟨rfl, rfl⟩ | hend
  · rw [hpasses.eq_of_same (.refl here)] at hfollow ⊢
    rw [gathering_params_of_isGroupEnd hfollow, addGroup_anonymous_nil]
  · cases hallows : builder.allowsNames with
    | false =>
      rw [gathering_params_of_not_allowsNames hend hallows]
      rw [hallows] at hinside
      obtain ⟨types, htypes, rfl⟩ | ⟨-, hnames⟩ := hinside
      · exact accepts_typesBehind none none builder ⟨.anonymous types, ⟨types, htypes, rfl⟩, rfl⟩
          hpasses hfollow
      · cases hnames
    | true =>
      rw [gathering_params_of_allowsNames hend hallows]
      rw [hallows, paramsInside_true_iff] at hinside
      obtain ⟨first, second, third, id, name, rfl, hid, hname, hgroup⟩ := hinside
      have hnames (id : Option Id) := accepts_optionalName.bind
        (fun name ↦ accepts_typesBehind id name builder)
        fun name _ result _ _ hgroup hpasses hend ↦
          shows_of_groupBehind hgroup.choose_spec.1 hpasses
          hend fun word ↦ by simp
      refine accepts_optionalId.bind hnames ?_ ⟨first, _, id, rfl, hid, second, third, name, rfl,
        hname, group, hgroup, rfl⟩ hpasses hfollow
      rintro id _ result here there ⟨second, third, name, rfl, hname, group, hgroup, -⟩ hpasses hend
      obtain ⟨middle, hsecond, hthird⟩ := hpasses.split
      cases name with
      | none =>
        cases hname
        rw [hsecond.eq_of_same (.refl here)] at hthird
        exact shows_of_groupBehind hgroup hthird hend fun word ↦ by simp
      | some name =>
        have hshows := starts_displayName hname hsecond
        simp only [Cursor.shows, Bool.and_eq_true, beq_iff_eq] at hshows
        simp [Cursor.shows, Token.id?, hshows]

/-- The rule of the inside of a group of results accepts it at the end of the group. -/
theorem accepts_results (builder : SignatureBuilder) :
    Accepts (gathering Grammar.results builder) (fun tokens result ↦
      ∃ types, Many Derivation.valType tokens types ∧
        result.2 = addGroup builder (.results types)) fun there ↦ there.isGroupEnd = true := by
  refine (accepts_gatherTypes (fun gathered ty ↦ gathered.addResult ty) builder).narrow ?_
  rintro tokens ⟨⟨⟩, _⟩ ⟨types, htypes, rfl⟩
  exact ⟨types, htypes, (foldl_addResult types builder).symm⟩

/-! ### Signatures -/

/-- The rule of the inside of a group accepts one that may follow. -/
theorem accepts_insideGroup (builder : SignatureBuilder) :
    Accepts (gathering insideGroup builder) (fun tokens result ↦
      groupStep groupInside builder tokens result.2) fun there ↦ there.isGroupEnd = true := by
  rintro taken ⟨⟨⟩, _⟩ here there ⟨found, hfound, hfollows, rfl⟩ hpasses hend
  rcases hfound with ⟨⟨span, group⟩, ⟨before, inside, rfl, hword, hinside⟩, rfl⟩ |
    ⟨⟨span, types⟩, ⟨before, inside, rfl, hword, htypes⟩, rfl⟩
  · obtain ⟨middle, hleft, -⟩ := hpasses.split
    have hparam := shows_keyword_iff.mpr (starts_word "param" hword hleft)
    have hresults : builder.results = [] := by
      by_cases hnone : builder.results = []
      · exact hnone
      · have hkind := hfollows hnone
        rcases hinside with ⟨types, -, rfl⟩ | ⟨⟨param, -, rfl⟩, -⟩ <;> cases hkind
    rw [gathering_insideGroup_of_param hparam hresults]
    exact ((accepts_keyword "param").bind_anywhere fun _ ↦ accepts_params builder)
      ⟨before, inside, span, rfl, hword, group, hinside, rfl⟩ hpasses hend
  · obtain ⟨middle, hleft, -⟩ := hpasses.split
    have hparam : here.shows 0 (.keyword "param") = false := by
      rw [Bool.eq_false_iff, ne_eq, shows_keyword_iff, starts_word "result" hword hleft]
      decide
    rw [gathering_insideGroup_of_not_param hparam]
    exact ((accepts_keyword "result").bind_anywhere fun _ ↦ accepts_results builder)
      ⟨before, inside, span, rfl, hword, types, htypes, rfl⟩ hpasses hend

/-- The rule of a group accepts one that may follow. -/
theorem accepts_signatureGroup (builder : SignatureBuilder) :
    Accepts (gathering Grammar.signatureGroup builder) (fun tokens result ↦
      groupStep Derivation.group builder tokens result.2) anything := by
  rw [gathering_signatureGroup]
  exact ((accepts_insideGroup builder).before fun there ↦
    Cursor.isGroupEnd_of_closing).parens.narrow fun tokens result ↦ parens_groupStep_iff.mpr

/-- A group opens with the keyword of parameters or of results. -/
theorem starts_signatureGroup (allowsNames : Bool) :
    Starts (Derivation.group allowsNames) fun here ↦ here.current.lexeme = .opening ∧
      here.opensSignatureGroup = true ∧ here.opensWith (.keyword "type") = false := by
  intro taken group here there hgroup hpasses
  rcases hgroup with hgroup | ⟨hgroup, -⟩ | hgroup <;>
  · refine ⟨starts_parens _ hgroup hpasses, ?_⟩
    have hopens := starts_group_map _ _ _ hgroup hpasses
    simp [Cursor.opensSignatureGroup, hopens]

/-- A group that may follow opens with the keyword of parameters or of results. -/
theorem starts_groupStep (builder : SignatureBuilder) :
    Starts (groupStep Derivation.group builder) fun here ↦ here.opensSignatureGroup = true := by
  rintro taken next here there ⟨found, hfound, -⟩ hpasses
  exact (starts_signatureGroup _ hfound hpasses).2.1

/-- A signature holds no group, or it starts with a parenthesis that opens no reference. -/
theorem isGroupEnd_or_opening_of_signature {allowsNames : Bool} {taken : List Token}
    {func : FunctionType} {here there : Cursor}
    (hfunc : Derivation.signature allowsNames taken func)
    (hpasses : Cursor.Passes taken here there) (hend : there.isGroupEnd = true) :
    here.isGroupEnd = true ∨
      here.current.lexeme = .opening ∧ here.opensWith (.keyword "type") = false := by
  obtain ⟨groups, ⟨hgroups, -⟩, -⟩ := hfunc
  cases hgroups with
  | nil =>
    rw [hpasses.eq_of_same (.refl here)] at hend
    exact .inl hend
  | cons hfirst hothers =>
    obtain ⟨middle, hleft, -⟩ := hpasses.split
    obtain ⟨hopening, -, hreference⟩ := starts_signatureGroup allowsNames hfirst hleft
    exact .inr ⟨hopening, hreference⟩

/-- The rule of signatures accepts one at the end of a group. -/
theorem accepts_signature (allowsNames : Bool) :
    Accepts (Grammar.signature allowsNames) (Derivation.signature allowsNames)
      fun there ↦ there.isGroupEnd = true := by
  have hgroups := accepts_gatherWhile accepts_signatureGroup starts_groupStep not_groupStep_nil
    (.empty allowsNames)
  rw [signature_eq]
  refine ((hgroups.map fun result ↦ result.2.finish).narrow ?_).before fun there hend ↦ ?_
  · rintro tokens _ ⟨groups, ⟨hgroups, horder⟩, rfl⟩
    refine ⟨((), groups.foldl addGroup (.empty allowsNames)), chain_groupStep_iff.mpr ⟨groups,
      hgroups, horder, fun hresults ↦ absurd rfl hresults, rfl⟩,
      finish_foldl_addGroup groups (.empty allowsNames)⟩
  · simp [Cursor.opensSignatureGroup, Cursor.opensWith_of_isGroupEnd hend]

/-- The rule of the keyword of functions and a signature accepts them at the end of a group. -/
theorem accepts_functionType : Accepts Grammar.functionType Derivation.functionType
    fun there ↦ there.isGroupEnd = true := by
  refine ((accepts_keyword "func").bind_anywhere fun _ ↦ accepts_signature true).narrow ?_
  rintro tokens _ ⟨⟨span, ty⟩, ⟨before, inside, rfl, hword, hinside⟩, rfl⟩
  exact ⟨before, inside, span, rfl, hword, hinside⟩

/-- The rule of a use of a function type accepts one at the end of a group. -/
theorem accepts_typeUse (allowsNames : Bool) :
    Accepts (Grammar.typeUse allowsNames) (Derivation.typeUse allowsNames)
      fun there ↦ there.isGroupEnd = true := by
  have hsignature (index : Option Index) :=
    (accepts_signature allowsNames).map fun func ↦ (⟨index, func⟩ : TypeUse)
  rintro _ _ here there ⟨⟨index, func⟩, ⟨left, right, rfl, hindex, hfunc⟩, rfl⟩ hpasses hend
  cases index with
  | none =>
    cases hindex
    rw [List.nil_append] at hpasses
    have hopens : here.opensWith (.keyword "type") = false := by
      rcases isGroupEnd_or_opening_of_signature hfunc hpasses hend with hhere | ⟨-, hopens⟩
      · exact Cursor.opensWith_of_isGroupEnd hhere _
      · exact hopens
    rw [typeUse_of_not_opensWith hopens]
    exact hsignature none ⟨func, hfunc, rfl⟩ hpasses hend
  | some index =>
    have hreference : Accepts typeReference referencePhrase anything :=
      ((accepts_keyword "type").bind_anywhere fun _ ↦
        accepts_index.anywhere.map some).parens
    have hopens : here.opensWith (.keyword "type") = true := by
      obtain ⟨middle, hleft, -⟩ := hpasses.split
      simp [starts_group_map _ _ _ hindex hleft]
    rw [typeUse_of_opensWith hopens]
    exact (hreference.bind_anywhere hsignature) ⟨left, right, some index, rfl,
      referencePhrase_iff.mpr ⟨index, rfl, hindex⟩, func, hfunc, rfl⟩ hpasses hend

end WatTypes.Grammar
