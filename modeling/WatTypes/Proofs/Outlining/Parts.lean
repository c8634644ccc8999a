import WatTypes.Proofs.Outlining.Quotation
import WatTypes.Tree.Erasure

/-!
# Outlines tell the module

The outline of a module is that of no other one, up to spans. A line that stands unmoved is a head,
and below a head the lines are moved to the right up to the next one, so that an entry can be taken
off the front of those behind it (`inner_append_inj`), a list of parts falls into them
(`flatMap_inj`), and each kind of part is told by its outline from the parts it is made of
(`ofModule_inj`).
-/

set_option autoImplicit false
set_option relaxedAutoImplicit false

namespace WatTypes

namespace Outline

/-! ### Heads and what is moved to the right -/

/-- A line that is not moved to the right. -/
def IsHead (line : String) : Prop := line.toList.head?.any (· != ' ') = true

instance (line : String) : Decidable (IsHead line) :=
  inferInstanceAs (Decidable (line.toList.head?.any (· != ' ') = true))

theorem IsHead.append {line : String} (h : IsHead line) (more : String) :
    IsHead (line ++ more) := by
  unfold IsHead at h ⊢
  rw [String.toList_append]
  cases hline : line.toList with
  | nil =>
    rw [hline] at h
    cases h
  | cons c rest => rwa [hline] at h

theorem not_isHead_moved (line : String) : ¬ IsHead ("  " ++ line) := by
  unfold IsHead
  rw [String.toList_append]
  exact Bool.false_ne_true

/-- Lines of which the first one, if there is one, is not moved to the right. -/
def StartsUnmoved (lines : List String) : Prop := ∀ line ∈ lines.head?, IsHead line

theorem startsUnmoved_nil : StartsUnmoved [] := fun _ h ↦ nomatch h

theorem startsUnmoved_cons {line : String} (h : IsHead line) (rest : List String) :
    StartsUnmoved (line :: rest) := fun _ hline ↦ Option.some.inj hline ▸ h

theorem indented_injective : Function.Injective indented := fun _ _ h ↦
  (List.map_inj_right fun _ _ hline ↦ (String.append_right_inj "  ").mp hline).mp h

section

variable {lines others rest more : List String} {name : String}

/-- Lines moved to the right are told from those behind them, which start unmoved. -/
theorem indented_append_inj (hrest : StartsUnmoved rest) (hmore : StartsUnmoved more)
    (h : indented lines ++ rest = indented others ++ more) : lines = others ∧ rest = more := by
  induction lines generalizing others with
  | nil =>
    cases others with
    | nil => exact ⟨rfl, h⟩
    | cons other others =>
      rw [indented, List.map_nil, List.nil_append] at h
      exact absurd (hrest _ (by rw [h]; rfl)) (not_isHead_moved other)
  | cons line lines ih =>
    cases others with
    | nil =>
      rw [indented, indented, List.map_nil, List.nil_append] at h
      exact absurd (hmore _ (by rw [← h]; rfl)) (not_isHead_moved line)
    | cons other others =>
      obtain ⟨hline, hlines⟩ := List.cons.inj h
      obtain ⟨rfl, hbehind⟩ := ih hlines
      exact ⟨by rw [(String.append_right_inj "  ").mp hline], hbehind⟩

/-- An entry that is a part is told from what is behind it. -/
theorem inner_append_inj (hrest : StartsUnmoved rest) (hmore : StartsUnmoved more)
    (h : inner name lines ++ rest = inner name others ++ more) : lines = others ∧ rest = more :=
  indented_append_inj hrest hmore (List.cons.inj h).2

/-- An entry that is a word is told from what is behind it. -/
theorem leaf_append_inj {value other : String}
    (h : leaf name value ++ rest = leaf name other ++ more) : value = other ∧ rest = more := by
  obtain ⟨hline, hbehind⟩ := List.cons.inj h
  exact ⟨(String.append_right_inj _).mp hline, hbehind⟩

/-- What starts with an entry that is a part does not start with one of another name. -/
theorem head?_inner_ne {other : String} (hname : name ++ ":" ≠ other ++ ":") :
    (inner name lines ++ rest).head? ≠ some (other ++ ":") := fun h ↦ hname (Option.some.inj h)

/-- Parts are the same if they are of the same kind and hold the same. -/
theorem part_inj {kind other : String} {entries found : List (List String)}
    (h : part kind entries = part other found) :
    kind = other ∧ entries.flatten = found.flatten := by
  obtain ⟨hkind, hentries⟩ := List.cons.inj h
  exact ⟨hkind, indented_injective hentries⟩

end

section

variable {α β : Type} {rest more : List String} {name : String}

/-- Assumes: what is behind starts unmoved, and not with an entry of the same name. An entry that
may be missing is told from what is behind it. -/
theorem optional_inner_append_inj {lines : α → List String} {value other : Option α}
    (hrest : StartsUnmoved rest) (hmore : StartsUnmoved more)
    (hother : rest.head? ≠ some (name ++ ":")) (hothers : more.head? ≠ some (name ++ ":"))
    (h : optional (fun present ↦ inner name (lines present)) value ++ rest =
      optional (fun present ↦ inner name (lines present)) other ++ more) :
    value.map lines = other.map lines ∧ rest = more := by
  cases value with
  | none =>
    cases other with
    | none => exact ⟨rfl, h⟩
    | some second => exact absurd (by rw [(show rest = _ from h)]; rfl) hother
  | some first =>
    cases other with
    | none => exact absurd (by rw [← (show _ = more from h)]; rfl) hothers
    | some second =>
      obtain ⟨hlines, hbehind⟩ := inner_append_inj hrest hmore h
      exact ⟨congrArg some hlines, hbehind⟩

/-- A head with lines moved to the right below it. -/
def IsBlock (lines : List String) : Prop := ∃ head body, lines = head :: indented body ∧ IsHead head

theorem isBlock_part {kind : String} (h : IsHead kind) (entries : List (List String)) :
    IsBlock (part kind entries) := ⟨kind, entries.flatten, rfl, h⟩

theorem startsUnmoved_flatMap {lines : α → List String} (h : ∀ value, IsBlock (lines value))
    (values : List α) : StartsUnmoved (values.flatMap lines) := by
  cases values with
  | nil => exact startsUnmoved_nil
  | cons value values =>
    obtain ⟨head, body, hlines, hhead⟩ := h value
    rw [List.flatMap_cons, hlines]
    exact startsUnmoved_cons hhead _

/-- A list of blocks falls into them in one way. -/
theorem flatMap_inj {lines : α → List String} (h : ∀ value, IsBlock (lines value))
    {values others : List α} (hlines : values.flatMap lines = others.flatMap lines) :
    values.map lines = others.map lines := by
  induction values generalizing others with
  | nil =>
    cases others with
    | nil => rfl
    | cons other others =>
      obtain ⟨head, body, hother, -⟩ := h other
      rw [List.flatMap_cons, hother] at hlines
      cases hlines
  | cons value values ih =>
    obtain ⟨head, body, hvalue, -⟩ := h value
    cases others with
    | nil =>
      rw [List.flatMap_cons, hvalue] at hlines
      cases hlines
    | cons other others =>
      obtain ⟨second, below, hother, -⟩ := h other
      simp only [List.flatMap_cons, hvalue, hother, List.cons_append, List.cons.injEq] at hlines
      obtain ⟨hhead, hbehind⟩ := hlines
      obtain ⟨hbody, hothers⟩ := indented_append_inj (startsUnmoved_flatMap h values)
        (startsUnmoved_flatMap h others) hbehind
      rw [List.map_cons, List.map_cons, ih hothers, hvalue, hother, hhead, hbody]

/-- Assumes: a list of blocks, and something behind it that starts unmoved. The list is told from
what is behind it. -/
theorem many_append_inj {lines : α → List String} (hblocks : ∀ value, IsBlock (lines value))
    {values others : List α} (hrest : StartsUnmoved rest) (hmore : StartsUnmoved more)
    (h : many name lines values ++ rest = many name lines others ++ more) :
    values.map lines = others.map lines ∧ rest = more := by
  have hdiffer : name ++ ": " ++ "[]" ≠ name ++ ":" := by
    intro hsame
    rw [String.append_assoc] at hsame
    exact absurd ((String.append_right_inj name).mp hsame) (by decide)
  unfold many at h
  split at h
  · rename_i hvalues
    rw [List.isEmpty_iff.mp hvalues]
    split at h
    · rename_i hothers
      rw [List.isEmpty_iff.mp hothers]
      exact ⟨rfl, (List.cons.inj h).2⟩
    · exact absurd (List.cons.inj h).1 hdiffer
  · split at h
    · exact absurd (List.cons.inj h).1.symm hdiffer
    · obtain ⟨hlines, hbehind⟩ := inner_append_inj hrest hmore h
      exact ⟨flatMap_inj hblocks hlines, hbehind⟩

theorem startsUnmoved_many {lines : α → List String} {values : List α} (hname : IsHead name)
    (rest : List String) : StartsUnmoved (many name lines values ++ rest) := by
  unfold many
  split
  · exact startsUnmoved_cons ((hname.append ": ").append "[]") rest
  · exact startsUnmoved_cons (hname.append ":") _

end

/-! ### Parts -/

theorem keyword_injective_valType : Function.Injective ValType.keyword := by
  intro first second h
  have hfound := ValType.ofKeyword?_keyword first
  rw [h, ValType.ofKeyword?_keyword] at hfound
  exact (Option.some.inj hfound).symm

theorem keyword_injective_elemType : Function.Injective ElemType.keyword := by
  intro first second h
  have hfound := ElemType.ofKeyword?_keyword first
  rw [h, ElemType.ofKeyword?_keyword] at hfound
  exact (Option.some.inj hfound).symm

theorem truth_injective : Function.Injective truth := by
  intro first second h
  cases first <;> cases second <;> first | rfl | exact absurd h (by decide)

/-- Names are told by their outlines. -/
theorem ofId_inj {first second : Id} (h : ofId first = ofId second) :
    first.withoutSpan = second.withoutSpan := by
  obtain ⟨-, hentries⟩ := part_inj h
  obtain ⟨hname, -⟩ := leaf_append_inj hentries
  simp only [Id.withoutSpan, Text.quoted_injective hname]

theorem ofDisplayName_inj {first second : DisplayName}
    (h : ofDisplayName first = ofDisplayName second) :
    first.withoutSpan = second.withoutSpan := by
  obtain ⟨-, hentries⟩ := part_inj h
  obtain ⟨hname, -⟩ := leaf_append_inj hentries
  simp only [DisplayName.withoutSpan, Text.quoted_injective hname]

/-- A number is written in digits, behind a minus if it is negative. -/
theorem toList_toString (value : Int) : (toString value).toList =
    if value < 0 then '-' :: Nat.toDigits 10 value.natAbs else Nat.toDigits 10 value.natAbs := by
  cases value with
  | ofNat magnitude => exact Nat.toList_repr
  | negSucc magnitude =>
    rw [show toString (Int.negSucc magnitude) = "-" ++ (magnitude + 1).repr from rfl,
      String.toList_append, Nat.toList_repr, if_pos (Int.negSucc_lt_zero magnitude)]
    rfl

theorem isDigit_of_mem_toString {value : Int} {c : Char} (h : c ∈ (toString value).toList) :
    c = '-' ∨ c.isDigit = true := by
  rw [toList_toString] at h
  split at h
  · rcases List.mem_cons.mp h with rfl | hdigit
    · exact .inl rfl
    · exact .inr (Nat.isDigit_of_mem_toDigits (by decide) (by decide) hdigit)
  · exact .inr (Nat.isDigit_of_mem_toDigits (by decide) (by decide) h)

/-- Numbers are told by how they are written. -/
theorem toString_injective : Function.Injective (toString : Int → String) := by
  intro value other h
  have hlists := congrArg String.toList h
  have hdigits {first second : Nat} (hsame : Nat.toDigits 10 first = Nat.toDigits 10 second) :
      first = second := by
    rw [← Nat.ofDigitChars_ten_toDigits (n := first), hsame, Nat.ofDigitChars_ten_toDigits]
  have hminus (magnitude : Nat) (rest : List Char) : Nat.toDigits 10 magnitude ≠ '-' :: rest := by
    intro hsame
    have hmem : '-' ∈ Nat.toDigits 10 magnitude := hsame ▸ List.mem_cons_self
    exact absurd (Nat.isDigit_of_mem_toDigits (by decide) (by decide) hmem) (by decide)
  rw [toList_toString, toList_toString] at hlists
  split at hlists
  · split at hlists
    · have hsame := hdigits (List.cons.inj hlists).2
      omega
    · exact absurd hlists.symm (hminus _ _)
  · split at hlists
    · exact absurd hlists (hminus _ _)
    · have hsame := hdigits hlists
      omega

/-- A number is not shown as a quoted text is. -/
theorem toString_ne_quoted (value : Int) (name : String) : toString value ≠ Text.quoted name := by
  intro h
  have hmark : Text.quotationMark name.toList ∈ (toString value).toList := by
    rw [h, Text.quoted, String.toList_ofList]
    exact List.mem_cons_self
  have hnumber := isDigit_of_mem_toString hmark
  rcases Text.quotationMark_cases name.toList with hquote | hquote <;>
    rw [hquote] at hnumber <;> exact absurd hnumber (by decide)

/-- References are told by their outlines. -/
theorem ofIndex_inj {first second : Index} (h : ofIndex first = ofIndex second) :
    first.withoutSpan = second.withoutSpan := by
  obtain ⟨-, hentries⟩ := part_inj h
  obtain ⟨hvalue, -⟩ := leaf_append_inj hentries
  obtain ⟨reference, span⟩ := first
  obtain ⟨other, place⟩ := second
  suffices hsame : reference = other by simp only [Index.withoutSpan, hsame]
  cases reference with
  | number value =>
    cases other with
    | number found => exact congrArg _ (toString_injective hvalue)
    | symbol name => exact absurd hvalue (toString_ne_quoted value name)
  | symbol name =>
    cases other with
    | number found => exact absurd hvalue.symm (toString_ne_quoted found name)
    | symbol found => exact congrArg _ (Text.quoted_injective hvalue)

/-- Limits are told by their outlines. -/
theorem ofLimits_injective : Function.Injective ofLimits := by
  rintro ⟨least, greatest⟩ ⟨other, found⟩ h
  obtain ⟨-, hentries⟩ := part_inj h
  obtain ⟨hleast, hgreatest⟩ := leaf_append_inj hentries
  have hmin : least = other := toString_injective hleast
  have hmax : greatest = found := by
    cases greatest with
    | none =>
      cases found with
      | none => rfl
      | some value => cases hgreatest
    | some most =>
      cases found with
      | none => cases hgreatest
      | some value => exact congrArg some (toString_injective (leaf_append_inj hgreatest).1)
  rw [hmin, hmax]

theorem ofGlobalType_injective : Function.Injective ofGlobalType := by
  rintro ⟨ty, isMutable⟩ ⟨other, found⟩ h
  obtain ⟨-, hentries⟩ := part_inj h
  obtain ⟨hkeyword, htruth⟩ := leaf_append_inj hentries
  have hty : ty = other := keyword_injective_valType hkeyword
  have hmutable : isMutable = found := truth_injective (leaf_append_inj htruth).1
  rw [hty, hmutable]

/-- A word under a name is no moved line. -/
theorem startsUnmoved_leaf {name : String} (hname : IsHead name) (value : String)
    (rest : List String) : StartsUnmoved (leaf name value ++ rest) :=
  startsUnmoved_cons ((hname.append ": ").append value) rest

theorem startsUnmoved_inner {name : String} (hname : IsHead name) (lines rest : List String) :
    StartsUnmoved (inner name lines ++ rest) :=
  startsUnmoved_cons (hname.append ":") _

theorem ofTableType_injective : Function.Injective ofTableType := by
  rintro ⟨limits, elem⟩ ⟨other, found⟩ h
  obtain ⟨-, hentries⟩ := part_inj h
  obtain ⟨hlines, hkeyword⟩ := inner_append_inj (startsUnmoved_leaf (by decide) _ [])
    (startsUnmoved_leaf (by decide) _ []) hentries
  have hlimits : limits = other := ofLimits_injective hlines
  have helem : elem = found := keyword_injective_elemType (leaf_append_inj hkeyword).1
  rw [hlimits, helem]

theorem ofMemoryType_injective : Function.Injective ofMemoryType := by
  rintro ⟨limits, isShared⟩ ⟨other, found⟩ h
  obtain ⟨-, hentries⟩ := part_inj h
  obtain ⟨hlines, htruth⟩ := inner_append_inj (startsUnmoved_leaf (by decide) _ [])
    (startsUnmoved_leaf (by decide) _ []) hentries
  have hlimits : limits = other := ofLimits_injective hlines
  have hshared : isShared = found := truth_injective (leaf_append_inj htruth).1
  rw [hlimits, hshared]

/-- What may be missing is told if it is told where it is there. -/
theorem map_eq_of_map_eq {α β γ : Type} {lines : α → β} {meaning : α → γ}
    (hlines : ∀ {value other : α}, lines value = lines other → meaning value = meaning other)
    {value other : Option α} (h : value.map lines = other.map lines) :
    value.map meaning = other.map meaning := by
  cases value with
  | none =>
    cases other with
    | none => rfl
    | some second => cases h
  | some first =>
    cases other with
    | none => cases h
    | some second => exact congrArg some (hlines (Option.some.inj h))

/-- The members of a list are told if each of them is. -/
theorem list_map_eq_of_map_eq {α β γ : Type} {lines : α → β} {meaning : α → γ}
    (hlines : ∀ {value other : α}, lines value = lines other → meaning value = meaning other)
    {values others : List α} (h : values.map lines = others.map lines) :
    values.map meaning = others.map meaning := by
  induction values generalizing others with
  | nil =>
    cases others with
    | nil => rfl
    | cons other others => cases h
  | cons value values ih =>
    cases others with
    | nil => cases h
    | cons other others =>
      obtain ⟨hfirst, hothers⟩ := List.cons.inj h
      rw [List.map_cons, List.map_cons, hlines hfirst, ih hothers]

/-- Parameters are told by their outlines. -/
theorem ofParam_inj {first second : Param} (h : ofParam first = ofParam second) :
    first.withoutSpans = second.withoutSpans := by
  obtain ⟨-, hentries⟩ := part_inj h
  obtain ⟨hkeyword, hnames⟩ := leaf_append_inj hentries
  have hname (param : Param) :
      StartsUnmoved (optional (fun name ↦ inner "name" (ofDisplayName name)) param.name ++ []) ∧
        (optional (fun name ↦ inner "name" (ofDisplayName name)) param.name ++ []).head? ≠
          some ("id" ++ ":") := by
    cases param.name with
    | none => exact ⟨startsUnmoved_nil, by decide⟩
    | some name => exact ⟨startsUnmoved_inner (by decide) _ _, head?_inner_ne (by decide)⟩
  obtain ⟨hid, hbehind⟩ := optional_inner_append_inj (hname first).1 (hname second).1
    (hname first).2 (hname second).2 hnames
  obtain ⟨hname, -⟩ := optional_inner_append_inj startsUnmoved_nil startsUnmoved_nil
    (by decide) (by decide) hbehind
  simp only [Param.withoutSpans, keyword_injective_valType hkeyword, map_eq_of_map_eq ofId_inj hid,
    map_eq_of_map_eq ofDisplayName_inj hname]

/-- Signatures are told by their outlines. -/
theorem ofFunctionType_inj {first second : FunctionType}
    (h : ofFunctionType first = ofFunctionType second) :
    first.withoutSpans = second.withoutSpans := by
  have hparam (param : Param) : IsBlock (ofParam param) := isBlock_part (by decide) _
  have hresult (result : ValType) : IsBlock [result.keyword] :=
    ⟨result.keyword, [], rfl, by cases result <;> decide⟩
  obtain ⟨-, hentries⟩ := part_inj h
  obtain ⟨hparams, hbehind⟩ := many_append_inj hparam (startsUnmoved_many (by decide) [])
    (startsUnmoved_many (by decide) []) hentries
  obtain ⟨hresults, -⟩ := many_append_inj hresult startsUnmoved_nil startsUnmoved_nil hbehind
  have htypes : first.results = second.results :=
    (List.map_inj_right fun _ _ hline ↦ keyword_injective_valType (List.cons.inj hline).1).mp
      hresults
  simp only [FunctionType.withoutSpans, list_map_eq_of_map_eq ofParam_inj hparams, htypes]

/-- Uses of function types are told by their outlines. -/
theorem ofTypeUse_inj {first second : TypeUse} (h : ofTypeUse first = ofTypeUse second) :
    first.withoutSpans = second.withoutSpans := by
  obtain ⟨-, hentries⟩ := part_inj h
  obtain ⟨hindex, hbehind⟩ := optional_inner_append_inj (startsUnmoved_inner (by decide) _ _)
    (startsUnmoved_inner (by decide) _ _) (head?_inner_ne (by decide))
    (head?_inner_ne (by decide)) hentries
  obtain ⟨hfunc, -⟩ := inner_append_inj startsUnmoved_nil startsUnmoved_nil hbehind
  simp only [TypeUse.withoutSpans, map_eq_of_map_eq ofIndex_inj hindex, ofFunctionType_inj hfunc]

/-- Declarations of a kind are told by their outlines. -/
theorem ofDeclaration_inj {first second : Declaration} (hkind : kindOf first = kindOf second)
    (h : ofDeclaration first = ofDeclaration second) :
    first.withoutSpans = second.withoutSpans := by
  cases first <;> cases second
  case type.type =>
    exact congrArg Declaration.type (ofFunctionType_inj (indented_injective (List.cons.inj h).2))
  case global.global =>
    rw [ofGlobalType_injective (indented_injective (List.cons.inj h).2)]
  case table.table =>
    rw [ofTableType_injective (indented_injective (List.cons.inj h).2)]
  case memory.memory =>
    rw [ofMemoryType_injective (indented_injective (List.cons.inj h).2)]
  case func.func =>
    exact congrArg Declaration.func (ofTypeUse_inj (indented_injective (List.cons.inj h).2))
  all_goals simp [kindOf] at hkind

theorem isHead_kindOf (declaration : Declaration) : IsHead (kindOf declaration) := by
  cases declaration <;> simp [IsHead, kindOf]

/-- Fields are told by their outlines. -/
theorem ofField_inj {first second : Field} (h : ofField first = ofField second) :
    first.withoutSpans = second.withoutSpans := by
  obtain ⟨hkind, hentries⟩ := part_inj h
  have hdeclaration (declaration : Declaration) :
      StartsUnmoved (ofDeclaration declaration ++ []) ∧
        (ofDeclaration declaration ++ []).head? ≠ some ("id" ++ ":") := by
    cases declaration <;>
      exact ⟨startsUnmoved_inner (by decide) _ _, head?_inner_ne (by decide)⟩
  obtain ⟨hid, hbehind⟩ := optional_inner_append_inj (hdeclaration first.declaration).1
    (hdeclaration second.declaration).1 (hdeclaration first.declaration).2
    (hdeclaration second.declaration).2 hentries
  simp only [List.append_nil] at hbehind
  simp only [Field.withoutSpans, map_eq_of_map_eq ofId_inj hid, ofDeclaration_inj hkind hbehind]

/-- Modules are told by their outlines. -/
theorem ofModule_inj {first second : TypeModule} (h : ofModule first = ofModule second) :
    first.withoutSpans = second.withoutSpans := by
  have hfield (field : Field) : IsBlock (ofField field) :=
    isBlock_part (isHead_kindOf field.declaration) _
  have hother (fields : List Field) :
      (many "fields" ofField fields ++ []).head? ≠ some ("id" ++ ":") := by
    unfold many
    split
    · decide
    · exact head?_inner_ne (by decide)
  obtain ⟨-, hentries⟩ := part_inj h
  obtain ⟨hid, hbehind⟩ := optional_inner_append_inj (startsUnmoved_many (by decide) [])
    (startsUnmoved_many (by decide) []) (hother _) (hother _) hentries
  obtain ⟨hfields, -⟩ := many_append_inj hfield startsUnmoved_nil startsUnmoved_nil hbehind
  simp only [TypeModule.withoutSpans, map_eq_of_map_eq ofId_inj hid,
    list_map_eq_of_map_eq ofField_inj hfields]

end Outline

end WatTypes
