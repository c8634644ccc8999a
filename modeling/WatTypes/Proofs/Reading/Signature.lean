import WatTypes.Grammar.Signature
import WatTypes.Proofs.Reading.Types

/-!
# Reading signatures

The rules of signatures gather into a builder. Seen from a fixed builder they are rules of the
cursor that answer with the builder too (`gathering`), and they read chains of groups each of which
may follow what has been gathered before it (`groupStep`). Such chains are the groups in order
(`chain_groupStep_iff`), and so the rule of signatures reads signatures (`reads_signature`).
-/

set_option autoImplicit false
set_option relaxedAutoImplicit false

namespace WatTypes.Grammar

open Rule Phrase

variable {α β : Type}

/-! ### Gathering -/

/-- A rule that gathers a signature, seen from a given builder: a rule of the cursor that answers
with the builder as well. -/
def gathering (rule : SignatureRule α) (builder : SignatureBuilder) :
    Rule Cursor (α × SignatureBuilder) := fun here ↦
  match rule (builder, here) with
  | (.ok answer, (gathered, there)) => (.ok (answer, gathered), there)
  | (.error error, (_, there)) => (.error error, there)

/-- A sequence hands the builder on. -/
theorem gathering_bind (first : SignatureRule α) (next : α → SignatureRule β)
    (builder : SignatureBuilder) :
    gathering (first >>= next) builder =
      gathering first builder >>= fun result ↦ gathering (next result.1) result.2 := by
  funext here
  simp only [gathering, Step.bind_apply]
  rcases first (builder, here) with ⟨outcome, gathered, there⟩
  cases outcome <;> rfl

/-- A rule of the cursor leaves the builder alone. -/
theorem gathering_onCursor (rule : Rule Cursor α) (builder : SignatureBuilder) :
    gathering (onCursor rule) builder = rule >>= fun answer ↦ pure (answer, builder) := by
  funext here
  simp only [gathering, onCursor, Step.bind_apply]
  rcases rule here with ⟨outcome, there⟩
  cases outcome <;> rfl

/-- A rule of the cursor hands the builder on as it is. -/
theorem gathering_onCursor_bind (rule : Rule Cursor α) (next : α → SignatureRule β)
    (builder : SignatureBuilder) :
    gathering (onCursor rule >>= next) builder =
      rule >>= fun answer ↦ gathering (next answer) builder := by
  funext here
  simp only [gathering, onCursor, Step.bind_apply]
  rcases rule here with ⟨outcome, there⟩
  cases outcome <;> rfl

/-- The rounds of a repetition that gathers. -/
def rounds (more : Cursor → Bool) (rule : SignatureRule Unit) : SignatureRule (List Unit) :=
  Step.whileMore (·.2.ahead.length) (fun here ↦ more here.2) rule

/-- A repetition is its rounds. -/
theorem gatherWhile_eq (more : Cursor → Bool) (rule : SignatureRule Unit) :
    gatherWhile more rule = rounds more rule >>= fun _ ↦ pure () := rfl

section Repetition

variable {more : Cursor → Bool} {rule : SignatureRule Unit}
  {phrase : SignatureBuilder → Phrase SignatureBuilder}

/-- Assumes: a rule that from every builder reads a phrase of at least one token. Where it answers
it has come nearer to the end of the input. -/
theorem length_ahead_lt_of_gathering
    (h : ∀ builder, Reads (gathering rule builder) fun tokens result ↦
      phrase builder tokens result.2)
    (hnonempty : ∀ builder next, ¬ phrase builder [] next) {here there : SignatureBuilder × Cursor}
    {answer : Unit} (hrun : rule here = (.ok answer, there)) :
    there.2.ahead.length < here.2.ahead.length := by
  have hgathering : gathering rule here.1 here.2 = (.ok (answer, there.1), there.2) := by
    simp only [gathering, hrun]
  exact (h here.1).length_ahead_lt (fun result ↦ hnonempty here.1 result.2) hgathering

/-- Assumes: a rule that from every builder reads a phrase of at least one token. Where more comes,
the rounds of its repetition are a first one and the others. -/
theorem rounds_apply
    (h : ∀ builder, Reads (gathering rule builder) fun tokens result ↦
      phrase builder tokens result.2)
    (hnonempty : ∀ builder next, ¬ phrase builder [] next) (here : SignatureBuilder × Cursor) :
    rounds more rule here =
      if more here.2 then
        (rule >>= fun answer ↦ rounds more rule >>= fun answers ↦ pure (answer :: answers)) here
      else (.ok [], here) :=
  Step.whileMore_eq_bind fun _ _ hrun ↦ length_ahead_lt_of_gathering h hnonempty hrun

/-- Assumes: a rule that from every builder reads a phrase of at least one token that ends in a
builder, and a sign of more that the next two tokens give. The rounds of its repetition read a chain
of such phrases. -/
theorem reads_rounds
    (hlocal : ∀ {here there : Cursor}, here.AgreesOn 2 there → more there = more here)
    (h : ∀ builder, Reads (gathering rule builder) fun tokens result ↦
      phrase builder tokens result.2)
    (hnonempty : ∀ builder next, ¬ phrase builder [] next) (builder : SignatureBuilder) :
    Reads (gathering (rounds more rule) builder) fun tokens result ↦
      Chain phrase builder tokens result.2 := by
  intro here
  induction hlength : here.ahead.length using Nat.strongRecOn generalizing builder here with
  | ind length ih =>
    cases hmore : more here with
    | false =>
      refine ((Reads.pure ([], builder)).mono ?_ here).of_eq fun there hagrees ↦ ?_
      · rintro tokens _ ⟨rfl, rfl⟩
        exact .nil
      · rw [gathering, rounds_apply h hnonempty, hlocal hagrees, hmore]
        rfl
    | true =>
      have hread := (h builder here).bind
        (fun first there hrun ↦ (ih _ (hlength ▸ (h builder).length_ahead_lt
          (fun result ↦ hnonempty builder result.2) hrun) first.2 there rfl).map
            fun others ↦ (first.1 :: others.1, others.2))
        fun first ↦ ⟨[], _, ([], first.2), .nil, rfl⟩
      refine (hread.mono ?_).of_eq fun there hagrees ↦ ?_
      · rintro tokens _ ⟨left, right, first, rfl, hfirst, others, hothers, rfl⟩
        exact .cons hfirst hothers
      · calc gathering (rounds more rule) builder there
            = gathering (rule >>= fun answer ↦ rounds more rule >>= fun answers ↦
                pure (answer :: answers)) builder there := by
              rw [gathering, rounds_apply h hnonempty, hlocal hagrees, hmore]
              rfl
          _ = _ := by
              simp only [gathering_bind]
              rfl

/-- Assumes: as for the rounds of a repetition. The repetition reads a chain of phrases. -/
theorem reads_gatherWhile
    (hlocal : ∀ {here there : Cursor}, here.AgreesOn 2 there → more there = more here)
    (h : ∀ builder, Reads (gathering rule builder) fun tokens result ↦
      phrase builder tokens result.2)
    (hnonempty : ∀ builder next, ¬ phrase builder [] next) (builder : SignatureBuilder) :
    Reads (gathering (gatherWhile more rule) builder) fun tokens result ↦
      Chain phrase builder tokens result.2 := by
  rw [gatherWhile_eq, gathering_bind]
  refine ((reads_rounds hlocal h hnonempty builder).map fun result ↦ ((), result.2)).mono ?_
  rintro tokens _ ⟨result, hresult, rfl⟩
  exact hresult

end Repetition

/-! ### Signatures -/

/-- A builder that has gathered a group as well. -/
def addGroup (builder : SignatureBuilder) (group : SignatureGroup) : SignatureBuilder :=
  { builder with
    params := builder.params ++ group.params
    results := builder.results ++ group.resultTypes }

/-- The inside of a group of parameters, behind its keyword. -/
def paramsInside (allowsNames : Bool) : Phrase SignatureGroup :=
  either (Phrase.map .anonymous (Many Derivation.valType))
    (only (fun _ ↦ allowsNames = true) (Phrase.map .named Derivation.namedParam))

/-- Adding parameters without names one by one is adding their group. -/
theorem foldl_addParam_anonymous (types : List ValType) (builder : SignatureBuilder) :
    types.foldl (fun gathered ty ↦ gathered.addParam (.anonymous ty)) builder =
      addGroup builder (.anonymous types) := by
  induction types generalizing builder with
  | nil => simp [addGroup, SignatureGroup.params, SignatureGroup.resultTypes]
  | cons ty types ih =>
    rw [List.foldl_cons, ih]
    simp [addGroup, SignatureBuilder.addParam, SignatureGroup.params,
      SignatureGroup.resultTypes]

/-- Adding results one by one is adding their group. -/
theorem foldl_addResult (types : List ValType) (builder : SignatureBuilder) :
    types.foldl (fun gathered ty ↦ gathered.addResult ty) builder =
      addGroup builder (.results types) := by
  induction types generalizing builder with
  | nil => simp [addGroup, SignatureGroup.params, SignatureGroup.resultTypes]
  | cons ty types ih =>
    rw [List.foldl_cons, ih]
    simp [addGroup, SignatureBuilder.addResult, SignatureGroup.params,
      SignatureGroup.resultTypes]

/-- A value type that a builder gathers, and the builder that has gathered it as well. -/
def typeStep (add : SignatureBuilder → ValType → SignatureBuilder) (builder : SignatureBuilder) :
    Phrase SignatureBuilder := fun tokens next ↦
  ∃ ty, Derivation.valType tokens ty ∧ next = add builder ty

/-- A value type holds a token. -/
theorem not_typeStep_nil (add : SignatureBuilder → ValType → SignatureBuilder)
    (builder next : SignatureBuilder) : ¬ typeStep add builder [] next := by
  rintro ⟨ty, hty, -⟩
  exact not_single_nil ty hty

/-- The rule of a value type that is gathered reads one. -/
theorem reads_gatherType (add : SignatureBuilder → ValType → SignatureBuilder)
    (builder : SignatureBuilder) :
    Reads (gathering (onCursor Grammar.valType >>= fun ty ↦ gather fun gathered ↦ add gathered ty)
      builder) fun tokens result ↦ typeStep add builder tokens result.2 := by
  rw [gathering_onCursor_bind]
  refine (reads_valType.map fun ty ↦ ((), add builder ty)).mono ?_
  rintro tokens _ ⟨ty, hty, rfl⟩
  exact ⟨ty, hty, rfl⟩

/-- Value types up to the end of a group are gathered one by one. -/
theorem reads_gatherTypes (add : SignatureBuilder → ValType → SignatureBuilder)
    (builder : SignatureBuilder) :
    Reads (gathering (gatherWhile (fun there ↦ !there.isGroupEnd) (onCursor Grammar.valType >>=
        fun ty ↦ gather fun gathered ↦ add gathered ty)) builder) fun tokens result ↦
      ∃ types, Many Derivation.valType tokens types ∧ result.2 = types.foldl add builder :=
  (reads_gatherWhile (fun hagrees ↦ by rw [hagrees.isGroupEnd_eq]) (reads_gatherType add)
    (not_typeStep_nil add) builder).mono fun _ _ ↦ chain_iff_exists_many.mp

/-- Reads the parameters of a group behind its identifier and its display name, which may be
missing. -/
def typesBehind (id : Option Id) (name : Option DisplayName) : SignatureRule Unit :=
  if id.isSome || name.isSome then
    onCursor valType >>= fun ty ↦ gather (.addParam ⟨ty, id, name⟩)
  else
    gatherWhile (fun there ↦ !there.isGroupEnd)
      (onCursor valType >>= fun ty ↦ gather (.addParam (.anonymous ty)))

/-- A group of parameters from behind its identifier and its display name, which may be missing:
behind a name there is one type, and otherwise there is any number of types. -/
def groupBehind (id : Option Id) (name : Option DisplayName) : Phrase SignatureGroup :=
  fun tokens group ↦
    if id.isSome || name.isSome then
      ∃ ty, Derivation.valType tokens ty ∧ group = .named ⟨ty, id, name⟩
    else ∃ types, Many Derivation.valType tokens types ∧ group = .anonymous types

/-- Adding a parameter with a name is adding its group. -/
theorem addParam_eq_addGroup (param : Param) (builder : SignatureBuilder) :
    builder.addParam param = addGroup builder (.named param) := by
  simp [addGroup, SignatureBuilder.addParam, SignatureGroup.params, SignatureGroup.resultTypes]

/-- The rule of the parameters behind a name reads them. -/
theorem reads_typesBehind (id : Option Id) (name : Option DisplayName)
    (builder : SignatureBuilder) :
    Reads (gathering (typesBehind id name) builder) fun tokens result ↦
      ∃ group, groupBehind id name tokens group ∧ result.2 = addGroup builder group := by
  cases hnamed : id.isSome || name.isSome with
  | true =>
    rw [typesBehind, if_pos hnamed, gathering_onCursor_bind]
    refine (reads_valType.map fun ty ↦ ((), builder.addParam ⟨ty, id, name⟩)).mono ?_
    rintro tokens _ ⟨ty, hty, rfl⟩
    refine ⟨.named ⟨ty, id, name⟩, ?_, addParam_eq_addGroup _ builder⟩
    rw [groupBehind, if_pos hnamed]
    exact ⟨ty, hty, rfl⟩
  | false =>
    rw [typesBehind, if_neg (by simp [hnamed])]
    refine (reads_gatherTypes (fun gathered ty ↦ gathered.addParam (.anonymous ty)) builder).mono ?_
    rintro tokens ⟨⟨⟩, stop⟩ ⟨types, htypes, rfl⟩
    refine ⟨.anonymous types, ?_, foldl_addParam_anonymous types builder⟩
    rw [groupBehind, if_neg (by simp [hnamed])]
    exact ⟨types, htypes, rfl⟩

/-- Where names are allowed, the inside of a group is the names that it bears, or does not bear, and
what comes behind them. -/
theorem paramsInside_true_iff {tokens : List Token} {group : SignatureGroup} :
    paramsInside true tokens group ↔
      ∃ first second third id name, tokens = first ++ (second ++ third) ∧
        Phrase.optional Derivation.id first id ∧
        Phrase.optional Derivation.displayName second name ∧ groupBehind id name third group := by
  constructor
  · rintro (⟨types, htypes, rfl⟩ |
      ⟨⟨_, ⟨⟨⟨id, name, ty⟩, ⟨first, _, rfl, hid, second, third, rfl, hname, hty⟩, rfl⟩, hnamed⟩,
        rfl⟩, -⟩)
    · exact ⟨[], [], tokens, none, none, rfl, rfl, rfl, types, htypes, rfl⟩
    · change (id.isSome || name.isSome) = true at hnamed
      refine ⟨first, second, third, id, name, rfl, hid, hname, ?_⟩
      rw [groupBehind, if_pos hnamed]
      exact ⟨ty, hty, rfl⟩
  · rintro ⟨first, second, third, id, name, rfl, hid, hname, hgroup⟩
    cases hnamed : id.isSome || name.isSome with
    | true =>
      rw [groupBehind, if_pos hnamed] at hgroup
      obtain ⟨ty, hty, rfl⟩ := hgroup
      exact .inr ⟨⟨⟨ty, id, name⟩, ⟨⟨(id, name, ty), ⟨first, _, rfl, hid, second, third, rfl,
        hname, hty⟩, rfl⟩, hnamed⟩, rfl⟩, rfl⟩
    | false =>
      rw [groupBehind, if_neg (by simp [hnamed])] at hgroup
      obtain ⟨types, htypes, rfl⟩ := hgroup
      simp only [Bool.or_eq_false_iff, Option.isSome_eq_false_iff, Option.isNone_iff_eq_none]
        at hnamed
      obtain ⟨rfl, rfl⟩ := hnamed
      cases hid
      cases hname
      exact .inl ⟨types, htypes, rfl⟩

section Params

variable {here : Cursor} {builder : SignatureBuilder}

/-- At its end a group holds no parameters. -/
theorem params_of_isGroupEnd (hend : here.isGroupEnd = true) :
    Grammar.params (builder, here) = (.ok (), (builder, here)) := by
  simp [Grammar.params, hend]

/-- Where names are not allowed and the group holds something, it holds types. -/
theorem params_of_not_allowsNames (hend : here.isGroupEnd = false)
    (hallows : builder.allowsNames = false) :
    Grammar.params (builder, here) = typesBehind none none (builder, here) := by
  simp [Grammar.params, hend, hallows, typesBehind]

/-- Where names are allowed and the group holds something, its names are read first. -/
theorem params_of_allowsNames (hend : here.isGroupEnd = false)
    (hallows : builder.allowsNames = true) :
    Grammar.params (builder, here) =
      (onCursor Element.id.readOptional >>= fun id ↦
        onCursor Element.displayName.readOptional >>= fun name ↦ typesBehind id name)
        (builder, here) := by
  simp [Grammar.params, hend, hallows, typesBehind]

theorem gathering_params_of_isGroupEnd (hend : here.isGroupEnd = true) :
    gathering Grammar.params builder here = (.ok ((), builder), here) := by
  rw [gathering, params_of_isGroupEnd hend]

theorem gathering_params_of_not_allowsNames (hend : here.isGroupEnd = false)
    (hallows : builder.allowsNames = false) :
    gathering Grammar.params builder here = gathering (typesBehind none none) builder here := by
  rw [gathering, params_of_not_allowsNames hend hallows, gathering]

theorem gathering_params_of_allowsNames (hend : here.isGroupEnd = false)
    (hallows : builder.allowsNames = true) :
    gathering Grammar.params builder here =
      (Element.id.readOptional >>= fun id ↦ Element.displayName.readOptional >>= fun name ↦
        gathering (typesBehind id name) builder) here := by
  simp only [← gathering_onCursor_bind]
  rw [gathering, params_of_allowsNames hend hallows, gathering]

end Params

/-- Adding a group of no parameters changes nothing. -/
theorem addGroup_anonymous_nil (builder : SignatureBuilder) :
    addGroup builder (.anonymous []) = builder := by
  simp [addGroup, SignatureGroup.params, SignatureGroup.resultTypes]

/-- The rule of the inside of a group of parameters reads it. -/
theorem reads_params (builder : SignatureBuilder) :
    Reads (gathering Grammar.params builder) fun tokens result ↦
      ∃ group, paramsInside builder.allowsNames tokens group ∧
        result.2 = addGroup builder group := by
  intro here
  cases hend : here.isGroupEnd with
  | true =>
    refine ((Reads.pure ((), builder)).mono ?_ here).of_eq fun there hagrees ↦ ?_
    · rintro tokens _ ⟨rfl, rfl⟩
      exact ⟨.anonymous [], .inl ⟨[], .nil, rfl⟩, (addGroup_anonymous_nil builder).symm⟩
    · exact gathering_params_of_isGroupEnd (by rw [hagrees.isGroupEnd_eq, hend])
  | false =>
    cases hallows : builder.allowsNames with
    | false =>
      refine ((reads_typesBehind none none builder).mono ?_ here).of_eq fun there hagrees ↦
        gathering_params_of_not_allowsNames (by rw [hagrees.isGroupEnd_eq, hend]) hallows
      rintro tokens result ⟨group, ⟨types, htypes, rfl⟩, hresult⟩
      exact ⟨.anonymous types, .inl ⟨types, htypes, rfl⟩, hresult⟩
    | true =>
      refine ((reads_optionalId.bind fun id ↦ reads_optionalName.bind fun name ↦
        reads_typesBehind id name builder).mono ?_ here).of_eq fun there hagrees ↦
          gathering_params_of_allowsNames (by rw [hagrees.isGroupEnd_eq, hend]) hallows
      rintro tokens result ⟨first, _, id, rfl, hid, second, third, name, rfl, hname, group, hgroup,
        hresult⟩
      exact ⟨group, paramsInside_true_iff.mpr ⟨first, second, third, id, name, rfl, hid, hname,
        hgroup⟩, hresult⟩

/-- The rule of the inside of a group of results reads it. -/
theorem reads_results (builder : SignatureBuilder) :
    Reads (gathering Grammar.results builder) fun tokens result ↦
      ∃ types, Many Derivation.valType tokens types ∧
        result.2 = addGroup builder (.results types) := by
  refine (reads_gatherTypes (fun gathered ty ↦ gathered.addResult ty) builder).mono ?_
  rintro tokens ⟨⟨⟩, stop⟩ ⟨types, htypes, rfl⟩
  exact ⟨types, htypes, foldl_addResult types builder⟩

/-- The inside of a group of a signature. -/
def groupInside (allowsNames : Bool) : Phrase SignatureGroup :=
  either (Phrase.map Prod.snd (both (word "param") (paramsInside allowsNames)))
    (Phrase.map (fun pair ↦ .results pair.2) (both (word "result") (Many Derivation.valType)))

/-- The inside of a group in parentheses is a group, and there are no other groups. -/
theorem parens_groupInside_iff {allowsNames : Bool} {tokens : List Token}
    {found : SignatureGroup} :
    Phrase.parens (groupInside allowsNames) tokens found ↔
      Derivation.group allowsNames tokens found := by
  constructor
  · rintro ⟨opening, closing, inner, rfl, hopening, hclosing,
      ⟨⟨span, _⟩, ⟨word, inside, rfl, hword, hinside⟩, rfl⟩ | ⟨⟨span, types⟩, htypes, rfl⟩⟩
    · rcases hinside with ⟨types, htypes, rfl⟩ | ⟨⟨param, hparam, rfl⟩, hallows⟩
      · exact .inl ⟨opening, closing, _, rfl, hopening, hclosing, (span, types),
          ⟨word, inside, rfl, hword, htypes⟩, rfl⟩
      · exact .inr (.inl ⟨⟨opening, closing, _, rfl, hopening, hclosing, (span, param),
          ⟨word, inside, rfl, hword, hparam⟩, rfl⟩, hallows⟩)
    · exact .inr (.inr ⟨opening, closing, _, rfl, hopening, hclosing, (span, types), htypes, rfl⟩)
  · rintro (⟨opening, closing, _, rfl, hopening, hclosing, ⟨span, types⟩,
        ⟨word, inside, rfl, hword, htypes⟩, rfl⟩ |
      ⟨⟨opening, closing, _, rfl, hopening, hclosing, ⟨span, param⟩,
        ⟨word, inside, rfl, hword, hparam⟩, rfl⟩, hallows⟩ |
      ⟨opening, closing, _, rfl, hopening, hclosing, ⟨span, types⟩, htypes, rfl⟩)
    · exact ⟨opening, closing, _, rfl, hopening, hclosing, .inl ⟨(span, .anonymous types),
        ⟨word, inside, rfl, hword, .inl ⟨types, htypes, rfl⟩⟩, rfl⟩⟩
    · exact ⟨opening, closing, _, rfl, hopening, hclosing, .inl ⟨(span, .named param),
        ⟨word, inside, rfl, hword, .inr ⟨⟨param, hparam, rfl⟩, hallows⟩⟩, rfl⟩⟩
    · exact ⟨opening, closing, _, rfl, hopening, hclosing, .inr ⟨(span, types), htypes, rfl⟩⟩

/-- A group that may follow what a builder has gathered, and the builder that has gathered it as
well; the given kind of phrase is the text of the group. -/
def groupStep (text : Bool → Phrase SignatureGroup) (builder : SignatureBuilder) :
    Phrase SignatureBuilder := fun tokens next ↦
  ∃ found, text builder.allowsNames tokens found ∧
    (builder.results ≠ [] → found.isResults = true) ∧ next = addGroup builder found

/-- Reads the inside of a group. -/
def insideGroup : SignatureRule Unit := fun (builder, here) ↦
  if here.shows 0 (.keyword "param") then
    if builder.results.isEmpty then
      (onCursor (keyword "param") >>= fun _ ↦ Grammar.params) (builder, here)
    else (.error (.paramAfterResult here.current.span), (builder, here))
  else (onCursor (keyword "result") >>= fun _ ↦ Grammar.results) (builder, here)

/-- A group is its inside in parentheses. -/
theorem signatureGroup_eq : Grammar.signatureGroup =
    onCursor opening >>= fun _ ↦ insideGroup >>= fun _ ↦ onCursor closing := by
  funext here
  simp only [Grammar.signatureGroup, Step.bind_apply]
  rcases onCursor opening here with ⟨opened, builder, there⟩
  cases opened with
  | error error => rfl
  | ok _ =>
    simp only [Step.state_apply, insideGroup]
    split
    · split
      · simp only [Step.bind_apply]
        rcases onCursor (keyword "param") (builder, there) with ⟨read, behind⟩
        cases read <;> rfl
      · rfl
    · simp only [Step.bind_apply]
      rcases onCursor (keyword "result") (builder, there) with ⟨read, behind⟩
      cases read <;> rfl

/-- A group of parameters may come as long as there are no results. -/
theorem gathering_insideGroup_of_param {here : Cursor} {builder : SignatureBuilder}
    (hparam : here.shows 0 (.keyword "param") = true) (hresults : builder.results = []) :
    gathering insideGroup builder here =
      (keyword "param" >>= fun _ ↦ gathering Grammar.params builder) here := by
  rw [← gathering_onCursor_bind]
  simp [gathering, insideGroup, hparam, hresults]

/-- Behind results a group of parameters is an error. -/
theorem gathering_insideGroup_of_late {here : Cursor} {builder : SignatureBuilder}
    (hparam : here.shows 0 (.keyword "param") = true) (hresults : builder.results ≠ []) :
    gathering insideGroup builder here =
      (.error (.paramAfterResult here.current.span), here) := by
  simp [gathering, insideGroup, hparam, hresults]

/-- Every other group is one of results. -/
theorem gathering_insideGroup_of_not_param {here : Cursor} {builder : SignatureBuilder}
    (hparam : here.shows 0 (.keyword "param") = false) :
    gathering insideGroup builder here =
      (keyword "result" >>= fun _ ↦ gathering Grammar.results builder) here := by
  rw [← gathering_onCursor_bind]
  simp [gathering, insideGroup, hparam]

/-- The rule of the inside of a group reads one that may follow. -/
theorem reads_insideGroup (builder : SignatureBuilder) :
    Reads (gathering insideGroup builder) fun tokens result ↦
      groupStep groupInside builder tokens result.2 := by
  intro here
  cases hparam : here.shows 0 (.keyword "param") with
  | false =>
    refine (((Reads.keyword "result").bind fun _ ↦ reads_results builder).mono ?_ here).of_eq
      fun there hagrees ↦ gathering_insideGroup_of_not_param (by rw [hagrees.shows_eq, hparam])
    rintro tokens result ⟨word, inside, span, rfl, hword, types, htypes, hresult⟩
    exact ⟨.results types, .inr ⟨(span, types), ⟨word, inside, rfl, hword, htypes⟩, rfl⟩,
      fun _ ↦ rfl, hresult⟩
  | true =>
    by_cases hresults : builder.results = []
    · refine (((Reads.keyword "param").bind fun _ ↦ reads_params builder).mono ?_ here).of_eq
        fun there hagrees ↦
          gathering_insideGroup_of_param (by rw [hagrees.shows_eq, hparam]) hresults
      rintro tokens result ⟨word, inside, span, rfl, hword, found, hfound, hresult⟩
      exact ⟨found, .inl ⟨(span, found), ⟨word, inside, rfl, hword, hfound⟩, rfl⟩,
        fun hne ↦ absurd hresults hne, hresult⟩
    · refine (ReadsAt.fail (fun there ↦ .paramAfterResult there.current.span) ?_ ?_).of_eq
        fun there hagrees ↦
          gathering_insideGroup_of_late (by rw [hagrees.shows_eq, hparam]) hresults
      · intro other hagrees
        rw [hagrees.current_eq]
      · refine ⟨⟨[bareToken (.keyword "result")], ((), addGroup builder (.results [])),
          .results [], .inr ⟨(.single "" .first, []), ⟨[_], [], rfl, ⟨_, rfl, rfl⟩, .nil⟩, rfl⟩,
          fun _ ↦ rfl, rfl⟩, fun name hname ↦ ?_⟩
        exact (List.not_mem_nil hname).elim

/-- Seen from a builder, the rule of a group is that of its inside, in parentheses. -/
theorem gathering_signatureGroup (builder : SignatureBuilder) :
    gathering Grammar.signatureGroup builder = parens (gathering insideGroup builder) := by
  rw [signatureGroup_eq, gathering_onCursor_bind]
  simp only [gathering_bind, gathering_onCursor]
  rfl

/-- Parentheses around what may follow are a group that may follow. -/
theorem parens_groupStep_iff {builder next : SignatureBuilder} {tokens : List Token} :
    Phrase.parens (groupStep groupInside builder) tokens next ↔
      groupStep Derivation.group builder tokens next := by
  constructor
  · rintro ⟨opening, closing, inside, htokens, hopening, hclosing, found, hfound, hnext⟩
    exact ⟨found, parens_groupInside_iff.mp ⟨opening, closing, inside, htokens, hopening, hclosing,
      hfound⟩, hnext⟩
  · rintro ⟨found, hfound, hnext⟩
    obtain ⟨opening, closing, inside, htokens, hopening, hclosing, hinside⟩ :=
      parens_groupInside_iff.mpr hfound
    exact ⟨opening, closing, inside, htokens, hopening, hclosing, found, hinside, hnext⟩

/-- The rule of a group reads one that may follow. -/
theorem reads_signatureGroup (builder : SignatureBuilder) :
    Reads (gathering Grammar.signatureGroup builder) fun tokens result ↦
      groupStep Derivation.group builder tokens result.2 := by
  rw [gathering_signatureGroup]
  exact (reads_insideGroup builder).parens.mono fun tokens result ↦ parens_groupStep_iff.mp

/-- A group that may follow holds a token. -/
theorem not_groupStep_nil (builder next : SignatureBuilder) :
    ¬ groupStep Derivation.group builder [] next :=
  fun hnext ↦ not_parens_nil next (parens_groupStep_iff.mpr hnext)

/-- Groups of which each may follow those before it are groups in order, and together they are what
the builder gathers. -/
theorem chain_groupStep_iff {start stop : SignatureBuilder} {tokens : List Token} :
    Chain (groupStep Derivation.group) start tokens stop ↔
      ∃ groups, Many (Derivation.group start.allowsNames) tokens groups ∧
        SignatureGroup.InOrder groups ∧
        (start.results ≠ [] → ∀ found ∈ groups, found.isResults = true) ∧
        stop = groups.foldl addGroup start := by
  constructor
  · intro h
    induction h with
    | nil => exact ⟨[], .nil, .nil, fun _ found hfound ↦ (List.not_mem_nil hfound).elim, rfl⟩
    | cons hfirst _ ih =>
      obtain ⟨first, hfirst, hfollows, rfl⟩ := hfirst
      obtain ⟨others, hothers, horder, hlater, rfl⟩ := ih
      refine ⟨first :: others, .cons hfirst hothers, ?_, ?_, rfl⟩
      · refine List.pairwise_cons.mpr ⟨fun other hother hresults ↦ hlater ?_ other hother, horder⟩
        exact fun hnone ↦ hresults (List.append_eq_nil_iff.mp hnone).2
      · intro hresults found hfound
        rcases List.mem_cons.mp hfound with rfl | hother
        · exact hfollows hresults
        · exact hlater (fun hnone ↦ hresults (List.append_eq_nil_iff.mp hnone).1) found hother
  · rintro ⟨groups, hgroups, horder, hlater, rfl⟩
    induction groups generalizing start tokens with
    | nil =>
      cases hgroups
      exact .nil
    | cons first others ih =>
      cases hgroups with
      | cons hfirst hothers =>
        obtain ⟨hfollowers, horder⟩ := List.pairwise_cons.mp horder
        refine .cons ⟨first, hfirst, fun hresults ↦ hlater hresults first List.mem_cons_self, rfl⟩
          (ih hothers horder fun hresults found hfound ↦ ?_)
        by_cases hnone : start.results = []
        · refine hfollowers found hfound fun hempty ↦ hresults ?_
          simp [addGroup, hnone, hempty]
        · exact hlater hnone found (List.mem_cons_of_mem first hfound)

/-- A builder that gathers groups one by one holds what they hold behind what it held. -/
theorem foldl_addGroup (groups : List SignatureGroup) (builder : SignatureBuilder) :
    groups.foldl addGroup builder =
      ⟨builder.allowsNames, builder.params ++ groups.flatMap SignatureGroup.params,
        builder.results ++ groups.flatMap SignatureGroup.resultTypes⟩ := by
  induction groups generalizing builder with
  | nil => simp
  | cons group others ih =>
    rw [List.foldl_cons, ih]
    simp [addGroup]

/-- A builder that gathers groups one by one holds the signature they denote behind what it held. -/
theorem finish_foldl_addGroup (groups : List SignatureGroup) (builder : SignatureBuilder) :
    (groups.foldl addGroup builder).finish =
      ⟨builder.params ++ groups.flatMap SignatureGroup.params,
        builder.results ++ groups.flatMap SignatureGroup.resultTypes⟩ := by
  rw [foldl_addGroup, SignatureBuilder.finish]

/-- A signature is what its groups gather into an empty builder. -/
theorem signature_eq (allowsNames : Bool) : Grammar.signature allowsNames =
    gathering signatureGroups (.empty allowsNames) >>= fun result ↦ pure result.2.finish := by
  funext here
  simp only [Grammar.signature, gathering, Step.bind_apply]
  rcases signatureGroups (.empty allowsNames, here) with ⟨outcome, gathered, there⟩
  cases outcome <;> rfl

/-- The rule of signatures reads one. -/
theorem reads_signature (allowsNames : Bool) :
    Reads (Grammar.signature allowsNames) (Derivation.signature allowsNames) := by
  have hgroups : Reads (gathering signatureGroups (.empty allowsNames)) _ :=
    reads_gatherWhile (fun hagrees ↦ hagrees.opensSignatureGroup_eq) reads_signatureGroup
      not_groupStep_nil (.empty allowsNames)
  rw [signature_eq]
  refine (hgroups.map fun result ↦ result.2.finish).mono ?_
  rintro tokens _ ⟨⟨⟨⟩, stop⟩, hchain, rfl⟩
  obtain ⟨groups, hgroups, horder, -, rfl⟩ := chain_groupStep_iff.mp hchain
  exact ⟨groups, ⟨hgroups, horder⟩, (finish_foldl_addGroup groups (.empty allowsNames)).symm⟩

/-- The rule of the keyword of functions and a signature reads them. -/
theorem reads_functionType : Reads Grammar.functionType Derivation.functionType := by
  refine ((Reads.keyword "func").bind fun _ ↦ reads_signature true).mono ?_
  rintro tokens ty ⟨word, signature, span, rfl, hword, hsignature⟩
  exact ⟨(span, ty), ⟨word, signature, rfl, hword, hsignature⟩, rfl⟩

/-- Reads a reference to a type in its parentheses. -/
def typeReference : Rule Cursor (Option Index) :=
  parens (keyword "type" >>= fun _ ↦ Rule.index >>= fun index ↦ pure (some index))

/-- A reference to a type in its parentheses. -/
def referencePhrase : Phrase (Option Index) :=
  Phrase.parens (andThen (word "type") fun _ ↦ Phrase.map some Derivation.index)

/-- A reference is one that may be missing and is there. -/
theorem referencePhrase_iff {tokens : List Token} {found : Option Index} :
    referencePhrase tokens found ↔ ∃ index, found = some index ∧
      Phrase.parens (Phrase.map Prod.snd (both (word "type") Derivation.index)) tokens index := by
  constructor
  · rintro ⟨opening, closing, _, rfl, hopening, hclosing, before, inside, span, rfl, hword, index,
      hindex, rfl⟩
    exact ⟨index, rfl, opening, closing, _, rfl, hopening, hclosing, (span, index),
      ⟨before, inside, rfl, hword, hindex⟩, rfl⟩
  · rintro ⟨index, rfl, opening, closing, _, rfl, hopening, hclosing, ⟨span, _⟩,
      ⟨before, inside, rfl, hword, hindex⟩, rfl⟩
    exact ⟨opening, closing, _, rfl, hopening, hclosing, before, inside, span, rfl, hword, _,
      hindex, rfl⟩

/-- A use of a function type starts with a reference where one opens. -/
theorem typeUse_of_opensWith {allowsNames : Bool} {here : Cursor}
    (h : here.opensWith (.keyword "type") = true) :
    Grammar.typeUse allowsNames here =
      (typeReference >>= fun index ↦
        Grammar.signature allowsNames >>= fun func ↦ pure ⟨index, func⟩) here := by
  simp only [Grammar.typeUse, Step.bind_apply, Step.state_apply, h, if_true]
  rfl

/-- Where no reference opens a use of a function type is a signature. -/
theorem typeUse_of_not_opensWith {allowsNames : Bool} {here : Cursor}
    (h : here.opensWith (.keyword "type") = false) :
    Grammar.typeUse allowsNames here =
      (Grammar.signature allowsNames >>= fun func ↦ pure ⟨none, func⟩) here := by
  simp only [Grammar.typeUse, Step.bind_apply, Step.state_apply, h, Bool.false_eq_true, if_false]
  rfl

/-- The rule of a use of a function type reads one. -/
theorem reads_typeUse (allowsNames : Bool) :
    Reads (Grammar.typeUse allowsNames) (Derivation.typeUse allowsNames) := by
  have hsignature (index : Option Index) :=
    (reads_signature allowsNames).map fun func ↦ (⟨index, func⟩ : TypeUse)
  have hreference : Reads typeReference referencePhrase :=
    ((Reads.keyword "type").bind fun _ ↦ reads_index.map some).parens
  intro here
  cases hopens : here.opensWith (.keyword "type") with
  | true =>
    refine ((hreference.bind hsignature).mono ?_ here).of_eq fun there hagrees ↦
      typeUse_of_opensWith (by rw [hagrees.opensWith_eq, hopens])
    rintro tokens use ⟨left, right, _, rfl, hleft, func, hfunc, rfl⟩
    obtain ⟨index, rfl, hindex⟩ := referencePhrase_iff.mp hleft
    exact ⟨(some index, func), ⟨left, right, rfl, hindex, hfunc⟩, rfl⟩
  | false =>
    refine ((hsignature none).mono ?_ here).of_eq fun there hagrees ↦
      typeUse_of_not_opensWith (by rw [hagrees.opensWith_eq, hopens])
    rintro tokens use ⟨func, hfunc, rfl⟩
    exact ⟨(none, func), ⟨[], tokens, rfl, rfl, hfunc⟩, rfl⟩

end WatTypes.Grammar
