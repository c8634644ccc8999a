import WatTypes.Proofs.Reading.Signature

/-!
# What a builder holds stays in order

A builder takes up one type at a time, and where a group breaks off it keeps what it has taken up,
so that work can go on with it behind an error. Whatever is read into a builder extends it
(`SignatureBuilder.Extends`): what it holds stays and more may come behind, but no parameter behind
results, and none with a name where names are not allowed. This holds of every rule that gathers
from the builders that it is used on (`Gathers`), with an answer or with an error, hence of every
group and of reading groups: of any two moments while groups are read, the later one extends the
earlier one (`extends_behindGroups`), and a group that adds results adds no parameter
(`params_eq_of_results_ne`). It holds as well of any number of calls one after another, each with a
cursor of its own (`order_kept_over_calls`).
-/

set_option autoImplicit false
set_option relaxedAutoImplicit false

namespace WatTypes

/-! ### Builders that extend others -/

namespace SignatureBuilder

/-- A builder holds what another one holds and, behind it, what may follow it. -/
structure Extends (before behind : SignatureBuilder) : Prop where
  /-- Names are allowed in both or in none. -/
  allowsNames_eq : behind.allowsNames = before.allowsNames
  /-- The parameters are still there. -/
  params_isPrefix : before.params <+: behind.params
  /-- The results are still there. -/
  results_isPrefix : before.results <+: behind.results
  /-- No parameter has come behind results. -/
  params_eq : before.results ≠ [] → behind.params = before.params
  /-- Where names are not allowed, parameters without names have come. -/
  anonymous : before.allowsNames = false →
    ∀ param ∈ behind.params, param ∈ before.params ∨ param.isNamed = false

theorem Extends.refl (builder : SignatureBuilder) : Extends builder builder where
  allowsNames_eq := rfl
  params_isPrefix := List.prefix_refl _
  results_isPrefix := List.prefix_refl _
  params_eq := fun _ ↦ rfl
  anonymous := fun _ _ hparam ↦ .inl hparam

theorem Extends.trans {before middle behind : SignatureBuilder} (hfirst : Extends before middle)
    (hsecond : Extends middle behind) : Extends before behind where
  allowsNames_eq := hsecond.allowsNames_eq.trans hfirst.allowsNames_eq
  params_isPrefix := hfirst.params_isPrefix.trans hsecond.params_isPrefix
  results_isPrefix := hfirst.results_isPrefix.trans hsecond.results_isPrefix
  params_eq := by
    intro hresults
    have hmiddle : middle.results ≠ [] := fun hnone ↦
      hresults (List.prefix_nil.mp (hnone ▸ hfirst.results_isPrefix))
    rw [hsecond.params_eq hmiddle, hfirst.params_eq hresults]
  anonymous := by
    intro hallows param hparam
    rcases hsecond.anonymous (hfirst.allowsNames_eq.trans hallows) param hparam with hheld | hnew
    · exact hfirst.anonymous hallows param hheld
    · exact .inr hnew

/-- A builder without results, in the given mode, to which parameters may still be added. -/
def TakesParams (allowsNames : Bool) (builder : SignatureBuilder) : Prop :=
  builder.allowsNames = allowsNames ∧ builder.results = []

/-- Without results a parameter may be added, with a name only where names are allowed. -/
theorem extends_addParam {allowsNames : Bool} {builder : SignatureBuilder} {param : Param}
    (hbuilder : TakesParams allowsNames builder)
    (hparam : param.isNamed = true → allowsNames = true) :
    builder.Extends (builder.addParam param) where
  allowsNames_eq := rfl
  params_isPrefix := List.prefix_append _ _
  results_isPrefix := List.prefix_refl _
  params_eq := fun hresults ↦ absurd hbuilder.2 hresults
  anonymous := by
    intro hallows other hother
    rcases List.mem_append.mp hother with hheld | hnew
    · exact .inl hheld
    · obtain rfl := List.mem_singleton.mp hnew
      refine .inr (Bool.eq_false_iff.mpr fun hnamed ↦ ?_)
      rw [hbuilder.1, hparam hnamed] at hallows
      cases hallows

/-- A result may always be added. -/
theorem extends_addResult (ty : ValType) (builder : SignatureBuilder) :
    builder.Extends (builder.addResult ty) where
  allowsNames_eq := rfl
  params_isPrefix := List.prefix_refl _
  results_isPrefix := List.prefix_append _ _
  params_eq := fun _ ↦ rfl
  anonymous := fun _ _ hparam ↦ .inl hparam

end SignatureBuilder

/-! ### Rules that gather -/

namespace Grammar

open Rule Step SignatureBuilder

variable {α β : Type} {kind : SignatureBuilder → Prop}

/-- From a builder of a kind a rule extends the builder, and leaves one of the same kind, whether it
answers or fails. -/
def Gathers (kind : SignatureBuilder → Prop) (rule : SignatureRule α) : Prop :=
  ∀ here, kind here.1 → here.1.Extends (rule here).2.1 ∧ kind (rule here).2.1

theorem gathers_pure (answer : α) : Gathers kind (pure answer) := fun here hkind ↦
  ⟨.refl here.1, hkind⟩

/-- A rule of the cursor leaves the builder alone. -/
theorem gathers_onCursor (rule : Rule Cursor α) : Gathers kind (onCursor rule) := fun here hkind ↦
  ⟨.refl here.1, hkind⟩

theorem gathers_gather {change : SignatureBuilder → SignatureBuilder}
    (h : ∀ builder, kind builder → builder.Extends (change builder) ∧ kind (change builder)) :
    Gathers kind (gather change) := fun here ↦ h here.1

/-- Rules that gather do so one after the other. -/
theorem Gathers.bind {first : SignatureRule α} {next : α → SignatureRule β}
    (hfirst : Gathers kind first) (hnext : ∀ answer, Gathers kind (next answer)) :
    Gathers kind (first >>= next) := by
  intro here hkind
  have hhere := hfirst here hkind
  rw [bind_apply]
  rcases hrun : first here with ⟨error | answer, there⟩
  · rwa [hrun] at hhere
  · rw [hrun] at hhere
    obtain ⟨hextends, hkept⟩ := hnext answer there hhere.2
    exact ⟨hhere.1.trans hextends, hkept⟩

/-- A rule that gathers does so again and again. -/
theorem Gathers.repeated {more : Cursor → Bool} {rule : SignatureRule Unit}
    (hrule : Gathers kind rule) : Gathers kind (gatherWhile more rule) := by
  have hrounds : Gathers kind (rounds more rule) := by
    intro here hkind
    unfold rounds
    fun_induction whileMore (·.2.ahead.length) (fun here : SignatureBuilder × Cursor ↦ more here.2)
      rule here with
    | case1 here _ _ there hrun | case4 here _ _ there hrun _ =>
      have hhere := hrule here hkind
      rwa [hrun] at hhere
    | case2 here _ _ there hrun _ _ stop hothers ih
    | case3 here _ _ there hrun _ _ stop hothers ih =>
      have hhere := hrule here hkind
      rw [hrun] at hhere
      have hbehind := ih hhere.2
      rw [hothers] at hbehind
      exact ⟨hhere.1.trans hbehind.1, hbehind.2⟩
    | case5 here _ => exact ⟨.refl here.1, hkind⟩
  rw [gatherWhile_eq]
  exact hrounds.bind fun _ ↦ gathers_pure ()

/-- Assumes: a name stands in front only where names are allowed. The parameters behind it are
gathered as long as there are no results. -/
theorem gathers_typesBehind {allowsNames : Bool} {id : Option Id} {name : Option DisplayName}
    (hnames : (id.isSome || name.isSome) = true → allowsNames = true) :
    Gathers (TakesParams allowsNames) (typesBehind id name) := by
  have hadd {param : Param} (hparam : param.isNamed = true → allowsNames = true) :
      Gathers (TakesParams allowsNames) (gather (.addParam param)) :=
    gathers_gather fun _ hbuilder ↦ ⟨extends_addParam hbuilder hparam, hbuilder⟩
  unfold typesBehind
  split
  · exact (gathers_onCursor _).bind fun ty ↦ hadd hnames
  · refine Gathers.repeated ((gathers_onCursor _).bind fun ty ↦ hadd fun hnamed ↦ ?_)
    cases hnamed

/-- The parameters of a group are gathered as long as there are no results. -/
theorem gathers_params (allowsNames : Bool) :
    Gathers (TakesParams allowsNames) Grammar.params := by
  rintro ⟨builder, here⟩ hbuilder
  cases hend : here.isGroupEnd with
  | true =>
    rw [params_of_isGroupEnd hend]
    exact ⟨.refl builder, hbuilder⟩
  | false =>
    cases allowsNames with
    | false =>
      rw [params_of_not_allowsNames hend hbuilder.1]
      exact gathers_typesBehind (by decide) (builder, here) hbuilder
    | true =>
      rw [params_of_allowsNames hend hbuilder.1]
      have hnamed : Gathers (TakesParams true) (onCursor Element.id.readOptional >>= fun id ↦
          onCursor Element.displayName.readOptional >>= fun name ↦ typesBehind id name) :=
        (gathers_onCursor _).bind fun _ ↦ (gathers_onCursor _).bind fun _ ↦
          gathers_typesBehind fun _ ↦ rfl
      exact hnamed (builder, here) hbuilder

/-- Results are gathered into every builder, and leave its parameters as they are. -/
theorem gathers_results (held : List Param) : Gathers (·.params = held) Grammar.results :=
  Gathers.repeated ((gathers_onCursor _).bind fun ty ↦
    gathers_gather fun builder hheld ↦ ⟨extends_addResult ty builder, hheld⟩)

/-- The inside of a group is gathered into every builder: behind results one of parameters is
refused before any of them is read. It leaves the results as they are, or the parameters. -/
theorem extends_insideGroup (here : SignatureBuilder × Cursor) :
    here.1.Extends (insideGroup here).2.1 ∧
      ((insideGroup here).2.1.results = here.1.results ∨
        (insideGroup here).2.1.params = here.1.params) := by
  obtain ⟨builder, here⟩ := here
  simp only [insideGroup]
  split
  · split
    · rename_i hresults
      have hnone : builder.results = [] := List.isEmpty_iff.mp hresults
      have hparams : Gathers (TakesParams builder.allowsNames)
          (onCursor (keyword "param") >>= fun _ ↦ Grammar.params) :=
        (gathers_onCursor _).bind fun _ ↦ gathers_params _
      obtain ⟨hextends, hkept⟩ := hparams (builder, here) ⟨rfl, hnone⟩
      exact ⟨hextends, .inl (hkept.2.trans hnone.symm)⟩
    · exact ⟨.refl builder, .inl rfl⟩
  · have hresults : Gathers (·.params = builder.params)
        (onCursor (keyword "result") >>= fun _ ↦ Grammar.results) :=
      (gathers_onCursor _).bind fun _ ↦ gathers_results _
    obtain ⟨hextends, hkept⟩ := hresults (builder, here) rfl
    exact ⟨hextends, .inr hkept⟩

/-- A group changes the builder by its inside, if at all. -/
theorem signatureGroup_cases (here : SignatureBuilder × Cursor) :
    (signatureGroup here).2.1 = here.1 ∨
      ∃ there, (signatureGroup here).2.1 = (insideGroup (here.1, there)).2.1 := by
  obtain ⟨builder, here⟩ := here
  rw [signatureGroup_eq, bind_apply, onCursor]
  rcases opening here with ⟨error | _, there⟩
  · exact .inl rfl
  · refine .inr ⟨there, ?_⟩
    simp only [bind_apply]
    rcases insideGroup (builder, there) with ⟨_ | _, _⟩ <;> rfl

/-- A group extends the builder, wherever it breaks off and why. -/
theorem extends_signatureGroup (here : SignatureBuilder × Cursor) :
    here.1.Extends (signatureGroup here).2.1 := by
  rcases signatureGroup_cases here with hsame | ⟨there, hinside⟩
  · rw [hsame]
    exact .refl _
  · rw [hinside]
    exact (extends_insideGroup (here.1, there)).1

/-- A group that adds results adds no parameter. -/
theorem params_eq_of_results_ne {here : SignatureBuilder × Cursor}
    (h : (signatureGroup here).2.1.results ≠ here.1.results) :
    (signatureGroup here).2.1.params = here.1.params := by
  rcases signatureGroup_cases here with hsame | ⟨there, hinside⟩
  · rw [hsame]
  · rw [hinside] at h ⊢
    exact (extends_insideGroup (here.1, there)).2.resolve_left h

/-! ### While groups are read -/

/-- Where reading groups is after so many of them. It goes on as long as a group opens, and stays
where one has broken off. -/
def behindGroups : Nat → SignatureBuilder × Cursor → SignatureBuilder × Cursor
  | 0, here => here
  | count + 1, here =>
    if here.2.opensSignatureGroup then
      match signatureGroup here with
      | (.error _, there) => there
      | (.ok _, there) => behindGroups count there
    else here

/-- From one moment to the next a group is read, if reading has not stopped. -/
theorem behindGroups_succ (count : Nat) (here : SignatureBuilder × Cursor) :
    behindGroups (count + 1) here = behindGroups count here ∨
      behindGroups (count + 1) here = (signatureGroup (behindGroups count here)).2 := by
  induction count generalizing here with
  | zero =>
    simp only [behindGroups]
    split
    · exact .inr (by rcases signatureGroup here with ⟨_ | _, _⟩ <;> rfl)
    · exact .inl rfl
  | succ count ih =>
    rw [behindGroups, behindGroups]
    split
    · rcases signatureGroup here with ⟨_ | _, there⟩
      · exact .inl rfl
      · exact ih there
    · exact .inl rfl

/-- At a later moment the builder extends what it was at an earlier one. -/
theorem extends_behindGroups (here : SignatureBuilder × Cursor) {early late : Nat}
    (h : early ≤ late) : (behindGroups early here).1.Extends (behindGroups late here).1 := by
  induction h with
  | refl => exact .refl _
  | @step late _ ih =>
    refine ih.trans ?_
    rcases behindGroups_succ late here with hsame | hgroup
    · rw [hsame]
      exact .refl _
    · rw [hgroup]
      exact extends_signatureGroup _

/-- Between two moments that follow one another no parameter comes along with results. -/
theorem params_behindGroups_succ {count : Nat} {here : SignatureBuilder × Cursor}
    (h : (behindGroups (count + 1) here).1.results ≠ (behindGroups count here).1.results) :
    (behindGroups (count + 1) here).1.params = (behindGroups count here).1.params := by
  rcases behindGroups_succ count here with hsame | hgroup
  · rw [hsame]
  · rw [hgroup] at h ⊢
    exact params_eq_of_results_ne h

/-- Reading groups stops after some of them. -/
theorem exists_behindGroups_eq (here : SignatureBuilder × Cursor) :
    ∃ count, behindGroups count here = (signatureGroups here).2 := by
  have hrounds : ∃ count,
      behindGroups count here = (rounds Cursor.opensSignatureGroup signatureGroup here).2 := by
    unfold rounds
    fun_induction whileMore (·.2.ahead.length)
      (fun here : SignatureBuilder × Cursor ↦ here.2.opensSignatureGroup) signatureGroup here with
    | case1 here hmore _ there hrun | case4 here hmore _ there hrun _ =>
      exact ⟨1, by simp only [behindGroups, hmore, hrun, if_true]⟩
    | case2 here hmore _ there hrun _ _ stop hothers ih
    | case3 here hmore _ there hrun _ _ stop hothers ih =>
      obtain ⟨count, hcount⟩ := ih
      rw [hothers] at hcount
      exact ⟨count + 1, by simp only [behindGroups, hmore, hrun, if_true, hcount]⟩
    | case5 here _ => exact ⟨0, rfl⟩
  obtain ⟨count, hcount⟩ := hrounds
  refine ⟨count, hcount.trans ?_⟩
  rw [signatureGroups, gatherWhile_eq, bind_apply]
  rcases rounds Cursor.opensSignatureGroup signatureGroup here with ⟨_ | _, _⟩ <;> rfl

/-- Reading groups extends the builder, wherever it stops and why. -/
theorem extends_signatureGroups (builder : SignatureBuilder) (here : Cursor) :
    builder.Extends (signatureGroups (builder, here)).2.1 := by
  obtain ⟨count, hcount⟩ := exists_behindGroups_eq (builder, here)
  rw [← hcount]
  exact extends_behindGroups (builder, here) (Nat.zero_le count)

end Grammar

/-! ### Calls one after another -/

namespace SignatureBuilder

/-- What can be asked of a builder. -/
inductive Call where
  /-- To read groups from a cursor on. -/
  | readGroups (here : Cursor)
  /-- To give the signature gathered so far. -/
  | finish
deriving DecidableEq, Repr

/-- What a builder answers. -/
inductive Reply where
  /-- How the groups were read, and where reading stopped. -/
  | groups (outcome : Except GrammarError Unit) (stop : Cursor)
  /-- A signature. -/
  | signature (gathered : FunctionType)

/-- The answer to a call, and the builder behind it. -/
def Call.perform (builder : SignatureBuilder) : Call → Reply × SignatureBuilder
  | .readGroups here =>
    match Grammar.signatureGroups (builder, here) with
    | (outcome, (gathered, stop)) => (.groups outcome stop, gathered)
  | .finish => (.signature builder.finish, builder)

/-- The builder behind calls, which go on whatever the answers are. -/
def afterAll (builder : SignatureBuilder) (calls : List Call) : SignatureBuilder :=
  calls.foldl (fun gathered call ↦ (call.perform gathered).2) builder

/-- A call extends the builder. -/
theorem extends_perform (builder : SignatureBuilder) (call : Call) :
    builder.Extends (call.perform builder).2 := by
  cases call with
  | readGroups here => exact Grammar.extends_signatureGroups builder here
  | finish => exact .refl builder

/-- Calls extend the builder. -/
theorem extends_afterAll (builder : SignatureBuilder) (calls : List Call) :
    builder.Extends (builder.afterAll calls) := by
  induction calls generalizing builder with
  | nil => exact .refl builder
  | cons call others ih => exact (extends_perform builder call).trans (ih _)

/-- A builder keeps its order over any calls, with cursors over any tokens, whether groups are read
or break off. What it holds at a moment it holds at every later one, in the same places; once it
holds a result, its parameters stay as they are; where names are not allowed, it takes up no
parameter with one. At every moment the signature it gives is what it holds, and giving it changes
nothing. The same is true within a call: from group to group the builder extends what it was, a
group that adds results adds no parameter, and behind some group the builder is as the call leaves
it. -/
theorem order_kept_over_calls (start : SignatureBuilder) (earlier later : List Call) :
    let before := start.afterAll earlier
    let behind := start.afterAll (earlier ++ later)
    before.params <+: behind.params ∧ before.results <+: behind.results ∧
      (before.results ≠ [] → behind.params = before.params) ∧
      (start.allowsNames = false →
        ∀ param ∈ before.params, param ∈ start.params ∨ param.isNamed = false) ∧
      Call.finish.perform before = (.signature ⟨before.params, before.results⟩, before) ∧
      ∀ here : Cursor,
        let after (count : Nat) : SignatureBuilder := (Grammar.behindGroups count (before, here)).1
        after 0 = before ∧
          (∀ early late, early ≤ late → (after early).Extends (after late)) ∧
          (∀ count, (after (count + 1)).results ≠ (after count).results →
            (after (count + 1)).params = (after count).params) ∧
          ∃ count, after count = ((Call.readGroups here).perform before).2 := by
  intro before behind
  have hbehind : before.Extends behind := by
    rw [show behind = before.afterAll later from List.foldl_append]
    exact extends_afterAll before later
  refine ⟨hbehind.params_isPrefix, hbehind.results_isPrefix, hbehind.params_eq,
    (extends_afterAll start earlier).anonymous, rfl, fun here ↦ ?_⟩
  obtain ⟨count, hcount⟩ := Grammar.exists_behindGroups_eq (before, here)
  exact ⟨rfl, fun _ _ hle ↦ Grammar.extends_behindGroups _ hle,
    fun _ hresults ↦ Grammar.params_behindGroups_succ hresults, count, congrArg Prod.fst hcount⟩

/-- A cursor before lexemes on the first line of a source, one column each. -/
def cursorOver (lexemes : List Lexeme) : Cursor :=
  ⟨[], lexemes.mapIdx fun index lexeme ↦ ⟨lexeme, .single "" ⟨1, index + 1⟩⟩,
    .single "" ⟨1, lexemes.length + 1⟩⟩

/-- A group of parameters that breaks off at a name, and one of results that breaks off at a word
that is no type. -/
def brokenCalls : List Call :=
  [.readGroups (cursorOver [.opening, .keyword "param", .keyword "i32", .id "x"]),
    .readGroups (cursorOver [.opening, .keyword "result", .keyword "i64", .keyword "shared"])]

/-- A group of parameters behind them, and the signature. -/
def lateCalls : List Call :=
  [.readGroups (cursorOver [.opening, .keyword "param", .keyword "f32", .closing]), .finish]

/-- A group of results and one of parameters. -/
def lateGroups : Cursor :=
  cursorOver [.opening, .keyword "result", .keyword "f64", .closing, .opening, .keyword "param",
    .keyword "f32", .closing]

theorem order_kept_over_calls_brokenCalls :
    let before := (empty false).afterAll brokenCalls
    let behind := (empty false).afterAll (brokenCalls ++ lateCalls)
    let after (count : Nat) := (Grammar.behindGroups count (before, lateGroups)).1
    before = ⟨false, [.anonymous .i32], [.i64]⟩ ∧ before.results ≠ [] ∧
      before.results <+: behind.results ∧ behind.params = before.params ∧
      (∀ param ∈ before.params, param.isNamed = false) ∧
      Call.finish.perform before = (.signature ⟨before.params, before.results⟩, before) ∧
      (after 1).results ≠ before.results ∧ (after 1).params = before.params ∧
      ((Call.readGroups lateGroups).perform before).2.params = before.params := by
  intro before behind after
  have hbefore : before = ⟨false, [.anonymous .i32], [.i64]⟩ := by decide +kernel
  have hresults : before.results ≠ [] := by simp [hbefore]
  obtain ⟨-, hprefix, hparams, hanonymous, hfinish, hwithin⟩ :=
    order_kept_over_calls (empty false) brokenCalls lateCalls
  obtain ⟨-, hextends, hgroup, count, hcall⟩ := hwithin lateGroups
  have hmore : (after 1).results ≠ before.results := by decide +kernel
  have hlast : ((Call.readGroups lateGroups).perform before).2.params = before.params := by
    rw [← hcall]
    exact (hextends 0 count (Nat.zero_le count)).params_eq hresults
  refine ⟨hbefore, hresults, hprefix, hparams hresults, fun param hparam ↦ ?_, hfinish, hmore,
    hgroup 0 hmore, hlast⟩
  exact (hanonymous rfl param hparam).resolve_left List.not_mem_nil

end SignatureBuilder

end WatTypes
