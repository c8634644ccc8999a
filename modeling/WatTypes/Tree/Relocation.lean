import WatTypes.Lexeme.Scan
import WatTypes.Tree.Erasure

/-!
# Tokens and trees at other places

The same text at another place, some lines further down or in a source of another name, gives the
same tokens and trees, with their spans moved. Moving the spans of a tree (`Field.relocated`)
changes neither what it means (`Field.withoutSpans_relocated`) nor, therefore, its canonical form
(`Field.lexemes_relocated`). Positions count in the same way from one line as from another
(`Position.afterAll_down`).
-/

set_option autoImplicit false
set_option relaxedAutoImplicit false

namespace WatTypes

/-! ### Positions and spans -/

/-- The position as many lines further down, in the same column. -/
def Position.down (lines : Int) (here : Position) : Position := ⟨here.line + lines, here.column⟩

/-- The span as many lines further down, in the same columns. -/
def Span.down (lines : Int) (span : Span) : Span :=
  ⟨span.file, span.first.down lines, span.last.down lines⟩

/-- The span in a source of another name. -/
def Span.inFile (file : String) (span : Span) : Span := ⟨file, span.first, span.last⟩

theorem Position.after_down (lines : Int) (here : Position) (c : Char) :
    (here.down lines).after c = (here.after c).down lines := by
  unfold after down
  split
  · simp only [mk.injEq, and_true]
    omega
  · rfl

theorem Position.afterAll_down (lines : Int) (here : Position) (taken : List Char) :
    (here.down lines).afterAll taken = (here.afterAll taken).down lines := by
  induction taken generalizing here with
  | nil => rfl
  | cons c others ih => rw [afterAll_cons, afterAll_cons, after_down, ih]

theorem Span.upTo_down (file : String) (lines : Int) (first stop : Position) :
    upTo file (first.down lines) (stop.down lines) = (upTo file first stop).down lines := rfl

/-- Behind a text and a line feed, as many lines have gone by as there are line feeds. -/
theorem Position.afterAll_lines (taken : List Char) :
    first.afterAll (taken ++ ['\n']) = first.down (1 + taken.count '\n') := by
  have hline (here : Position) : (here.afterAll taken).line = here.line + taken.count '\n' := by
    induction taken generalizing here with
    | nil => simp
    | cons c others ih =>
      rw [afterAll_cons, ih]
      by_cases hc : c = '\n'
      · simp only [after, hc, if_true, List.count_cons_self]
        omega
      · simp only [after, if_neg hc, List.count_cons_of_ne hc]
  rw [afterAll_append, afterAll_cons, afterAll_nil]
  have hsum : (first.afterAll taken).line + 1 = first.line + (1 + taken.count '\n') := by
    rw [hline]
    omega
  simp only [after, if_true, down, hsum]
  rfl

/-! ### Tokens and trees -/

/-- A token with its span moved. -/
def Token.relocated (move : Span → Span) (token : Token) : Token := ⟨token.lexeme, move token.span⟩

/-- An identifier with its span moved. -/
def Id.relocated (move : Span → Span) (id : Id) : Id := ⟨id.name, move id.span⟩

/-- A display name with its span moved. -/
def DisplayName.relocated (move : Span → Span) (name : DisplayName) : DisplayName :=
  ⟨name.name, move name.span⟩

/-- A reference with its span moved. -/
def Index.relocated (move : Span → Span) (index : Index) : Index :=
  ⟨index.reference, move index.span⟩

/-- A parameter with its spans moved. -/
def Param.relocated (move : Span → Span) (param : Param) : Param :=
  ⟨param.ty, param.id.map (Id.relocated move), param.name.map (DisplayName.relocated move)⟩

/-- A group of a signature with its spans moved. -/
def SignatureGroup.relocated (move : Span → Span) : SignatureGroup → SignatureGroup
  | .named param => .named (param.relocated move)
  | other => other

/-- A signature with its spans moved. -/
def FunctionType.relocated (move : Span → Span) (ty : FunctionType) : FunctionType :=
  ⟨ty.params.map (Param.relocated move), ty.results⟩

/-- A use of a function type with its spans moved. -/
def TypeUse.relocated (move : Span → Span) (use : TypeUse) : TypeUse :=
  ⟨use.index.map (Index.relocated move), use.func.relocated move⟩

/-- What a field declares, with its spans moved. -/
def Declaration.relocated (move : Span → Span) : Declaration → Declaration
  | .type signature => .type (signature.relocated move)
  | .func use => .func (use.relocated move)
  | other => other

/-- A field with its spans moved. -/
def Field.relocated (move : Span → Span) (field : Field) : Field :=
  ⟨field.id.map (Id.relocated move), field.declaration.relocated move, move field.span⟩

/-! ### What does not change -/

section

variable (move : Span → Span)

@[simp] theorem Token.lexeme_relocated (token : Token) :
    (token.relocated move).lexeme = token.lexeme := rfl

theorem Param.isNamed_relocated (param : Param) :
    (param.relocated move).isNamed = param.isNamed := by
  simp [isNamed, relocated]

theorem Param.withoutSpans_relocated (param : Param) :
    (param.relocated move).withoutSpans = param.withoutSpans := by
  obtain ⟨ty, id, name⟩ := param
  cases id <;> cases name <;> rfl

theorem FunctionType.withoutSpans_relocated (ty : FunctionType) :
    (ty.relocated move).withoutSpans = ty.withoutSpans := by
  simp [withoutSpans, relocated, Function.comp_def, Param.withoutSpans_relocated]

theorem TypeUse.withoutSpans_relocated (use : TypeUse) :
    (use.relocated move).withoutSpans = use.withoutSpans := by
  obtain ⟨index, func⟩ := use
  cases index <;>
    simp [withoutSpans, relocated, Index.withoutSpan, Index.relocated,
      FunctionType.withoutSpans_relocated]

theorem Declaration.withoutSpans_relocated (declaration : Declaration) :
    (declaration.relocated move).withoutSpans = declaration.withoutSpans := by
  cases declaration <;>
    simp [withoutSpans, relocated, FunctionType.withoutSpans_relocated,
      TypeUse.withoutSpans_relocated]

/-- Moving spans does not change what a field means. -/
theorem Field.withoutSpans_relocated (field : Field) :
    (field.relocated move).withoutSpans = field.withoutSpans := by
  obtain ⟨id, declaration, span⟩ := field
  cases id <;>
    simp [withoutSpans, relocated, Id.withoutSpan, Id.relocated,
      Declaration.withoutSpans_relocated]

/-- Moving spans does not change how a field is written. -/
theorem Field.lexemes_relocated (field : Field) :
    (field.relocated move).lexemes = field.lexemes := by
  rw [← Field.lexemes_withoutSpans, withoutSpans_relocated, Field.lexemes_withoutSpans]

end

end WatTypes
