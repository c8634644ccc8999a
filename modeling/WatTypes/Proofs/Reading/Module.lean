import WatTypes.Grammar.Module
import WatTypes.Proofs.Reading.Signature

/-!
# Reading modules

A field is told by its keyword, and each kind of field reads what it declares (`FieldKind`). A
module is its parts, in parentheses or not, and behind them the end of the input (`module_apply`);
the rule of the parts reads them (`reads_moduleParts`).
-/

set_option autoImplicit false
set_option relaxedAutoImplicit false

namespace WatTypes.Grammar

open Rule Phrase

/-! ### Fields -/

/-- A kind of field. -/
inductive FieldKind where
  /-- The declaration of a type. -/
  | type
  /-- The declaration of a global. -/
  | global
  /-- The declaration of a table. -/
  | table
  /-- The declaration of a memory. -/
  | memory
  /-- The header of a function. -/
  | func

namespace FieldKind

/-- The keyword of a kind of field. -/
def word : FieldKind → String
  | .type => "type"
  | .global => "global"
  | .table => "table"
  | .memory => "memory"
  | .func => "func"

/-- The rule of what a kind of field declares. -/
def rule : FieldKind → Rule Cursor Declaration
  | .type => do return .type (← parens Grammar.functionType)
  | .global => do return .global (← Grammar.globalType)
  | .table => do return .table (← Grammar.tableType)
  | .memory => do return .memory (← Grammar.memoryType)
  | .func => do return .func (← Grammar.typeUse true)

/-- What a kind of field declares. -/
def phrase : FieldKind → Phrase Declaration
  | .type => Phrase.map .type (Phrase.parens Derivation.functionType)
  | .global => Phrase.map .global Derivation.globalType
  | .table => Phrase.map .table Derivation.tableType
  | .memory => Phrase.map .memory Derivation.memoryType
  | .func => Phrase.map .func (Derivation.typeUse true)

/-- The rule of each kind reads what it declares. -/
theorem reads_rule (kind : FieldKind) : Reads kind.rule kind.phrase := by
  cases kind with
  | type => exact reads_functionType.parens.map Declaration.type
  | global => exact reads_globalType.map Declaration.global
  | table => exact reads_tableType.map Declaration.table
  | memory => exact reads_memoryType.map Declaration.memory
  | func => exact (reads_typeUse true).map Declaration.func

end FieldKind

/-- A field is a field of some kind. -/
theorem field_iff_exists_kind (tokens : List Token) (found : Field) :
    Derivation.field tokens found ↔
      ∃ kind : FieldKind, Derivation.fieldOf kind.word kind.phrase tokens found := by
  constructor
  · rintro (h | h | h | h | h)
    · exact ⟨.type, h⟩
    · exact ⟨.global, h⟩
    · exact ⟨.table, h⟩
    · exact ⟨.memory, h⟩
    · exact ⟨.func, h⟩
  · rintro ⟨kind, h⟩
    cases kind with
    | type => exact .inl h
    | global => exact .inr (.inl h)
    | table => exact .inr (.inr (.inl h))
    | memory => exact .inr (.inr (.inr (.inl h)))
    | func => exact .inr (.inr (.inr (.inr h)))

/-- Where the keyword of a kind shows, a field is read by the rule of that kind. -/
theorem field_eq_of_shows {here : Cursor} {kind : FieldKind}
    (h : here.shows 0 (.keyword kind.word) = true) :
    Grammar.field here = Grammar.fieldOf kind.word kind.rule here := by
  have hother {word : String} (hne : word ≠ kind.word) :
      ¬ here.shows 0 (.keyword word) = true := by
    rw [shows_keyword_iff, shows_keyword_iff.mp h]
    simpa using hne.symm
  have heq : Grammar.field here = (if here.shows 0 (.keyword "type") then typeField
      else if here.shows 0 (.keyword "global") then globalField
      else if here.shows 0 (.keyword "table") then tableField
      else if here.shows 0 (.keyword "memory") then memoryField
      else if here.shows 0 (.keyword "func") then funcField
      else expecting _) here := rfl
  rw [heq]
  cases kind with
  | type =>
    change here.shows 0 (.keyword "type") = true at h
    rw [if_pos h]
    rfl
  | global =>
    change here.shows 0 (.keyword "global") = true at h
    rw [if_neg (hother (by decide)), if_pos h]
    rfl
  | table =>
    change here.shows 0 (.keyword "table") = true at h
    rw [if_neg (hother (by decide)), if_neg (hother (by decide)), if_pos h]
    rfl
  | memory =>
    change here.shows 0 (.keyword "memory") = true at h
    rw [if_neg (hother (by decide)), if_neg (hother (by decide)), if_neg (hother (by decide)),
      if_pos h]
    rfl
  | func =>
    change here.shows 0 (.keyword "func") = true at h
    rw [if_neg (hother (by decide)), if_neg (hother (by decide)), if_neg (hother (by decide)),
      if_neg (hother (by decide)), if_pos h]
    rfl

/-- Where the keyword of no kind shows, a field cannot be read. -/
theorem field_eq_expecting {here : Cursor}
    (h : ∀ kind : FieldKind, here.shows 0 (.keyword kind.word) = false) :
    Grammar.field here = (.error (here.unexpected
      (["type", "global", "table", "memory", "func"].map fun word ↦
        Element.display (.keyword word))), here) := by
  have htype := h .type
  have hglobal := h .global
  have htable := h .table
  have hmemory := h .memory
  have hfunc := h .func
  simp only [FieldKind.word] at htype hglobal htable hmemory hfunc
  simp only [Grammar.field, Step.bind_apply, Step.state_apply, htype, hglobal, htable, hmemory,
    hfunc, Bool.false_eq_true, if_false]
  rfl

/-- The rule of fields of one kind reads one. -/
theorem reads_fieldOf (kind : FieldKind) :
    Reads (Grammar.fieldOf kind.word kind.rule) (Derivation.fieldOf kind.word kind.phrase) := by
  refine ((Reads.keyword kind.word).bind fun span ↦ reads_optionalId.both
    (fun id declared ↦ (⟨id, declared, span⟩ : Field)) kind.reads_rule).mono ?_
  rintro tokens field ⟨left, right, span, rfl, hword, ⟨id, declared⟩, hinside, rfl⟩
  exact ⟨(span, id, declared), ⟨left, right, rfl, hword, hinside⟩, rfl⟩

/-- The keyword of each kind starts a field. -/
theorem exists_field_of_keyword (kind : FieldKind) :
    ∃ more field, Derivation.field (bareToken (.keyword kind.word) :: more) field := by
  obtain ⟨more, declared, hdeclared⟩ := kind.reads_rule.exists_phrase (.single "" .first)
  exact ⟨more, _, (field_iff_exists_kind _ _).mpr ⟨kind, (_, none, declared),
    ⟨[_], more, rfl, ⟨_, rfl, if_pos rfl⟩, [], more, rfl, rfl, hdeclared⟩, rfl⟩⟩

/-- The alternatives for a field are the keywords of the kinds. -/
theorem exists_kind_of_mem {name : String}
    (h : name ∈ ["type", "global", "table", "memory", "func"].map fun word ↦
      Element.display (.keyword word)) :
    ∃ kind : FieldKind, name = Element.display (.keyword kind.word) := by
  simp only [List.map_cons, List.map_nil, List.mem_cons, List.not_mem_nil, or_false] at h
  rcases h with h | h | h | h | h
  · exact ⟨.type, h⟩
  · exact ⟨.global, h⟩
  · exact ⟨.table, h⟩
  · exact ⟨.memory, h⟩
  · exact ⟨.func, h⟩

/-- The rule of a field reads one. -/
theorem reads_field : Reads Grammar.field Derivation.field := by
  intro here
  by_cases hkind : ∃ kind : FieldKind, here.shows 0 (.keyword kind.word) = true
  · obtain ⟨kind, hshows⟩ := hkind
    refine ((reads_fieldOf kind).mono (fun tokens field hfield ↦ ?_) here).of_eq
      fun there hagrees ↦ field_eq_of_shows (by rw [hagrees.shows_eq, hshows])
    exact (field_iff_exists_kind tokens field).mpr ⟨kind, hfield⟩
  · refine (ReadsAt.fail (fun there ↦ there.unexpected _)
      (fun other hagrees ↦ hagrees.unexpected_eq _) ⟨?_, fun name hname ↦ ?_⟩).of_eq
        fun there hagrees ↦ field_eq_expecting fun kind ↦ ?_
    · obtain ⟨more, field, hfield⟩ := exists_field_of_keyword .type
      exact ⟨_, field, hfield⟩
    · obtain ⟨kind, rfl⟩ := exists_kind_of_mem hname
      obtain ⟨more, field, hfield⟩ := exists_field_of_keyword kind
      exact ⟨_, more, field, .described rfl, hfield⟩
    · rw [hagrees.shows_eq, Bool.eq_false_iff]
      exact fun hshows ↦ hkind ⟨kind, hshows⟩

/-! ### Modules -/

/-- The rule of fields reads them. -/
theorem reads_fields : Reads Grammar.fields Derivation.fields :=
  reads_field.parens.untilGroupEnd fun found ↦ not_parens_nil found

/-- Reads the identifier and the fields of a module, in parentheses or not. -/
def moduleParts : Rule Cursor (Option Id × List Field) := fun here ↦
  if here.opensWith (.keyword "module") then parens wrappedModule here
  else (Grammar.fields >>= fun fields ↦ pure (none, fields)) here

/-- The rule of the parts of a module reads them. -/
theorem reads_moduleParts : Reads moduleParts Derivation.module := by
  have hwrapped := ((Reads.keyword "module").bind fun _ ↦
    reads_optionalId.both Prod.mk reads_fields).parens
  intro here
  cases hopens : here.opensWith (.keyword "module") with
  | true =>
    refine (hwrapped.mono ?_ here).of_eq fun there hagrees ↦ ?_
    · rintro tokens value ⟨opening, closing, inner, rfl, hopening, hclosing, left, right, span, rfl,
        hword, parts, hparts, rfl⟩
      exact .inl ⟨opening, closing, _, rfl, hopening, hclosing, (span, parts),
        ⟨left, right, rfl, hword, hparts⟩, rfl⟩
    · simp [moduleParts, hagrees.opensWith_eq, hopens, wrappedModule]
  | false =>
    refine ((reads_fields.map fun fields ↦ ((none : Option Id), fields)).mono ?_ here).of_eq
      fun there hagrees ↦ ?_
    · exact fun tokens value hvalue ↦ .inr hvalue
    · simp [moduleParts, hagrees.opensWith_eq, hopens]

/-- A module is its parts, and behind them the end of the input. -/
theorem module_apply (here : Cursor) :
    Grammar.module here =
      match moduleParts here with
      | (.ok parts, there) =>
        if there.isAtEnd then
          (.ok ⟨parts.1, parts.2, here.current.span.file, here.current.span.first,
            there.current.span.last⟩, there)
        else (.error (there.unexpected [Lexeme.endOfInput.describe]), there)
      | (.error error, there) => (.error error, there) := by
  simp only [Grammar.module, Step.bind_apply, Step.state_apply, moduleParts]
  split
  · simp only [Step.bind_apply]
    rcases parens wrappedModule here with ⟨outcome, there⟩
    cases outcome with
    | error error => rfl
    | ok parts =>
      simp only [Step.state_apply]
      split <;> rfl
  · simp only [Step.bind_apply]
    rcases Grammar.fields here with ⟨outcome, there⟩
    cases outcome with
    | error error => rfl
    | ok fields =>
      simp only [Step.state_apply, Step.pure_apply]
      split <;> rfl

end WatTypes.Grammar
