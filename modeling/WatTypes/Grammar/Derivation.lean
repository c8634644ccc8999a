import WatTypes.SignatureGroup
import WatTypes.Token

/-!
# The grammar as a relation

What the grammar says, without saying how it is read: each kind of phrase relates runs of tokens to
what they denote. A phrase is put together from smaller ones by writing them one after another; a
signature is any sequence of groups that is in order, and everything else has a single form.
-/

set_option autoImplicit false
set_option relaxedAutoImplicit false

namespace WatTypes.Grammar

/-- A kind of phrase: which runs of tokens denote what. -/
abbrev Phrase (α : Type) : Type := List Token → α → Prop

namespace Phrase

variable {α β : Type}

/-- A single token, by its meaning. -/
def single (meaning : Token → Option α) : Phrase α := fun tokens value ↦
  ∃ token, tokens = [token] ∧ meaning token = some value

/-- A reserved word, by its place. -/
def word (text : String) : Phrase Span := single (Token.keyword? text)

/-- Two phrases one after the other. -/
def both (first : Phrase α) (second : Phrase β) : Phrase (α × β) := fun tokens value ↦
  ∃ left right, tokens = left ++ right ∧ first left value.1 ∧ second right value.2

/-- A phrase that may be missing. -/
def optional (phrase : Phrase α) : Phrase (Option α) := fun tokens value ↦
  match value with
  | none => tokens = []
  | some present => phrase tokens present

/-- Any number of phrases of one kind. -/
inductive Many (phrase : Phrase α) : Phrase (List α)
  /-- No phrase. -/
  | nil : Many phrase [] []
  /-- A phrase, and those behind it. -/
  | cons {first others : List Token} {value : α} {values : List α} :
    phrase first value → Many phrase others values → Many phrase (first ++ others) (value :: values)

/-- A phrase with a meaning made from its own. -/
def map (meaning : α → β) (phrase : Phrase α) : Phrase β := fun tokens value ↦
  ∃ inner, phrase tokens inner ∧ meaning inner = value

/-- One phrase or another one. -/
def either (first second : Phrase α) : Phrase α := fun tokens value ↦
  first tokens value ∨ second tokens value

/-- A phrase of which only some denotations are allowed. -/
def only (allowed : α → Prop) (phrase : Phrase α) : Phrase α := fun tokens value ↦
  phrase tokens value ∧ allowed value

/-- A phrase in parentheses. -/
def parens (phrase : Phrase α) : Phrase α := fun tokens value ↦
  ∃ opening closing inner, tokens = opening :: inner ++ [closing] ∧
    opening.lexeme = .opening ∧ closing.lexeme = .closing ∧ phrase inner value

end Phrase

namespace Derivation

open Phrase

/-! ### Units -/

/-- A value type. -/
def valType : Phrase ValType := single Token.valType?

/-- An element type. -/
def elemType : Phrase ElemType := single Token.elemType?

/-- An unsigned integer of 32 bits. -/
def unsigned : Phrase Nat := single Token.unsigned?

/-- An identifier. -/
def id : Phrase Id := single Token.id?

/-- A reference. -/
def index : Phrase Index := single Token.index?

/-- A display name in its parentheses, of which the first one gives its place. -/
def displayName : Phrase DisplayName := fun tokens name ↦
  ∃ opening head text closing, tokens = [opening, head, text, closing] ∧
    opening.lexeme = .opening ∧ head.lexeme = .annotationHead "name" ∧
    text.lexeme = .string name.name ∧ closing.lexeme = .closing ∧ opening.span = name.span

/-! ### Types -/

/-- Size bounds. -/
def limits : Phrase Limits :=
  map (fun (least, greatest) ↦ ⟨least, greatest.map fun (value : Nat) ↦ (value : Int)⟩)
    (both unsigned (optional unsigned))

/-- The type of a global. -/
def globalType : Phrase GlobalType :=
  either (map (⟨·, false⟩) valType)
    (parens (map (fun (_, ty) ↦ ⟨ty, true⟩) (both (word "mut") valType)))

/-- The type of a table. -/
def tableType : Phrase TableType :=
  map (fun (bounds, ty) ↦ ⟨bounds, ty⟩) (both limits elemType)

/-- The type of a memory. -/
def memoryType : Phrase MemoryType :=
  map (fun (bounds, shared) ↦ ⟨bounds, shared.isSome⟩) (both limits (optional (word "shared")))

/-! ### Signatures -/

/-- A parameter with a name. -/
def namedParam : Phrase Param :=
  only (·.isNamed = true)
    (map (fun (id, name, ty) ↦ ⟨ty, id, name⟩)
      (both (optional id) (both (optional displayName) valType)))

/-- A group of parameters without names. -/
def anonymousGroup : Phrase SignatureGroup :=
  parens (map (fun (_, types) ↦ .anonymous types) (both (word "param") (Many valType)))

/-- A group of a single parameter with a name. -/
def namedGroup : Phrase SignatureGroup :=
  parens (map (fun (_, param) ↦ .named param) (both (word "param") namedParam))

/-- A group of results. -/
def resultGroup : Phrase SignatureGroup :=
  parens (map (fun (_, types) ↦ .results types) (both (word "result") (Many valType)))

/-- A group of a signature. -/
def group (allowsNames : Bool) : Phrase SignatureGroup :=
  either anonymousGroup
    (either (only (fun _ ↦ allowsNames = true) namedGroup) resultGroup)

/-- A signature. -/
def signature (allowsNames : Bool) : Phrase FunctionType :=
  map FunctionType.ofGroups (only SignatureGroup.InOrder (Many (group allowsNames)))

/-- The keyword of functions and a signature. -/
def functionType : Phrase FunctionType :=
  map Prod.snd (both (word "func") (signature true))

/-- A use of a function type. -/
def typeUse (allowsNames : Bool) : Phrase TypeUse :=
  map (fun (index, func) ↦ ⟨index, func⟩)
    (both (optional (parens (map Prod.snd (both (word "type") index)))) (signature allowsNames))

/-! ### Modules -/

/-- The inside of a field of one kind. -/
def fieldOf (keyword : String) (declaration : Phrase Declaration) : Phrase Field :=
  map (fun (span, id, declared) ↦ ⟨id, declared, span⟩)
    (both (word keyword) (both (optional id) declaration))

/-- The inside of a field. -/
def field : Phrase Field :=
  either (fieldOf "type" (map .type (parens functionType)))
    (either (fieldOf "global" (map .global globalType))
      (either (fieldOf "table" (map .table tableType))
        (either (fieldOf "memory" (map .memory memoryType))
          (fieldOf "func" (map .func (typeUse true))))))

/-- Fields, each in its parentheses. -/
def fields : Phrase (List Field) := Many (parens field)

/-- The identifier and the fields of a module, which stands in parentheses or is its fields
alone. -/
def module : Phrase (Option Id × List Field) :=
  either (parens (map Prod.snd (both (word "module") (both (optional id) fields))))
    (map (fun fields ↦ (none, fields)) fields)

end Derivation

end WatTypes.Grammar
