import WatTypes.Lexeme
import WatTypes.Tree

/-!
# Trees that can be written down

Not every tree has a text: an identifier has to be a word, and a size or a number of a reference has
to fit into 32 bits. Display names may be any text. All of this can be decided.
-/

set_option autoImplicit false
set_option relaxedAutoImplicit false

namespace WatTypes

/-- Whether a text can be an identifier: it is not empty, and made of the characters of words. -/
def IsWord (text : String) : Prop := text ≠ "" ∧ ∀ c ∈ text.toList, isIdChar c = true

instance (text : String) : Decidable (IsWord text) :=
  decidable_of_iff (text ≠ "" ∧ text.toList.all isIdChar = true) (by simp [IsWord])

/-- Whether an integer is an unsigned one of 32 bits. -/
def IsUnsigned32 (value : Int) : Prop := 0 ≤ value ∧ value < 4294967296

instance (value : Int) : Decidable (IsUnsigned32 value) := inferInstanceAs (Decidable (_ ∧ _))

/-- Whether an identifier can be written. -/
def Id.WellFormed (id : Id) : Prop := IsWord id.name

instance (id : Id) : Decidable id.WellFormed := inferInstanceAs (Decidable (IsWord _))

/-- Whether a reference can be written. -/
def Index.WellFormed (index : Index) : Prop :=
  match index.reference with
  | .number value => IsUnsigned32 value
  | .symbol name => IsWord name

instance (index : Index) : Decidable index.WellFormed := by
  unfold Index.WellFormed
  split <;> infer_instance

/-- Whether size bounds can be written. -/
def Limits.WellFormed (limits : Limits) : Prop :=
  IsUnsigned32 limits.min ∧ ∀ most ∈ limits.max, IsUnsigned32 most

instance (limits : Limits) : Decidable limits.WellFormed := inferInstanceAs (Decidable (_ ∧ _))

/-- Whether a parameter can be written. -/
def Param.WellFormed (param : Param) : Prop := ∀ id ∈ param.id, id.WellFormed

instance (param : Param) : Decidable param.WellFormed :=
  inferInstanceAs (Decidable (∀ id ∈ param.id, id.WellFormed))

/-- Whether a signature can be written. -/
def FunctionType.WellFormed (ty : FunctionType) : Prop := ∀ param ∈ ty.params, param.WellFormed

instance (ty : FunctionType) : Decidable ty.WellFormed :=
  inferInstanceAs (Decidable (∀ param ∈ ty.params, param.WellFormed))

/-- Whether a use of a function type can be written. -/
def TypeUse.WellFormed (use : TypeUse) : Prop :=
  (∀ index ∈ use.index, index.WellFormed) ∧ use.func.WellFormed

instance (use : TypeUse) : Decidable use.WellFormed := inferInstanceAs (Decidable (_ ∧ _))

/-- Whether what a field declares can be written. -/
def Declaration.WellFormed : Declaration → Prop
  | .type signature => signature.WellFormed
  | .global _ => True
  | .table ty => ty.limits.WellFormed
  | .memory ty => ty.limits.WellFormed
  | .func use => use.WellFormed

instance (declaration : Declaration) : Decidable declaration.WellFormed := by
  cases declaration <;> unfold Declaration.WellFormed <;> infer_instance

/-- Whether a field can be written. -/
def Field.WellFormed (field : Field) : Prop :=
  (∀ id ∈ field.id, id.WellFormed) ∧ field.declaration.WellFormed

instance (field : Field) : Decidable field.WellFormed := inferInstanceAs (Decidable (_ ∧ _))

/-- Whether a module can be written. -/
def TypeModule.WellFormed (m : TypeModule) : Prop :=
  (∀ id ∈ m.id, id.WellFormed) ∧ ∀ field ∈ m.fields, field.WellFormed

instance (m : TypeModule) : Decidable m.WellFormed := inferInstanceAs (Decidable (_ ∧ _))

end WatTypes
