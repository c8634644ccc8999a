import WatTypes.Grammar.Module

/-!
# Texts that an editor sends

An editor may send any code points, halves of surrogate pairs that stand alone among them, which
are no characters (`CodePoint`). No rule of reading asks for a surrogate, and none asks for U+FFFD,
so that a text is read as if that character stood in the place of every surrogate
(`SourceText.seen`). There are two differences. A message quotes what the text holds
(`SourceText.wording`). And a surrogate that stands for itself in a string literal has no bytes in
UTF-8: reading breaks off there, and gives neither a module nor anything that is wrong with the text
(`SourceText.breaksOff`).
-/

set_option autoImplicit false
set_option relaxedAutoImplicit false

namespace WatTypes

/-! ### Characters that are turned into bytes -/

/-- The positions of the characters of a string literal that stand for themselves, from behind its
opening quotation mark. -/
def Lexeme.encodedPositions (here : Place) : List Position :=
  match _h : here.rest with
  | [] => []
  | '"' :: _ => []
  | '\n' :: _ => []
  | '\\' :: rest =>
    let escape := readEscape rest
    encodedPositions (here.past ('\\' :: escape.taken) escape.rest)
  | c :: rest => here.position :: encodedPositions (here.past [c] rest)
termination_by here.rest.length
decreasing_by
  · have shorter := length_rest_readEscape_le rest
    simp only [_h, Place.past, List.length_cons]
    omega
  · simp [_h, Place.past]

/-- The positions of the characters of all string literals that stand for themselves, from a place
of a source on. -/
def Scan.encodedPositions (here : Place) : List Position :=
  match _h : here.rest with
  | [] => []
  | c :: rest =>
    (if c = '"' then Lexeme.encodedPositions (here.past [c] rest) else []) ++
      encodedPositions (Stretch.read "" here c rest).2
termination_by here.rest.length
decreasing_by
  have shorter := Stretch.length_rest_read_lt "" here c rest
  rw [_h]
  exact shorter

namespace Editor

/-! ### Code points -/

/-- A code point: a character, or a half of a surrogate pair. -/
inductive CodePoint where
  /-- A character. -/
  | char (c : Char)
  /-- The surrogate with a number, counted from U+D800. -/
  | surrogate (number : Fin 2048)
deriving DecidableEq, Repr

/-- The character as which the rules of reading see a code point. -/
def CodePoint.seen : CodePoint → Char
  | .char c => c
  | .surrogate _ => '\ufffd'

/-- The surrogates among code points, each with its position, where the first code point stands at a
given one. -/
def CodePoint.surrogates (here : Position) : List CodePoint → List (Position × Fin 2048)
  | [] => []
  | .char c :: rest => surrogates (here.after c) rest
  | .surrogate number :: rest =>
    (here, number) :: surrogates (here.after (CodePoint.surrogate number).seen) rest

/-- A text as an editor sends it. -/
structure SourceText where
  /-- The code points. -/
  codePoints : List CodePoint
deriving DecidableEq, Repr

namespace SourceText

/-- A text without surrogates. -/
def ofString (text : String) : SourceText := ⟨text.toList.map .char⟩

instance : Coe String SourceText := ⟨ofString⟩

/-- A text as the rules of reading see it. -/
def seen (text : SourceText) : String := String.ofList (text.codePoints.map CodePoint.seen)

/-- The surrogates of a text with their positions. -/
def surrogates (text : SourceText) : List (Position × Fin 2048) :=
  CodePoint.surrogates .first text.codePoints

/-- Whether reading a text breaks off, at a surrogate that stands for itself in a string literal. -/
def breaksOff (text : SourceText) : Bool :=
  text.surrogates.any fun (place, _) ↦
    (Scan.encodedPositions (.start text.seen)).contains place

/-- The wording of a fault that has been met at a position of a text. A surrogate that can start no
lexeme is shown by its code, and one that follows a backslash as it is. -/
def wording (text : SourceText) (fault : Lexeme.Fault) (here : Position) : SourceText :=
  match fault with
  | .unexpectedChar _ =>
    match text.surrogates.lookup here with
    | some number =>
      "unexpected character: '\\u" ++ String.ofList (Text.hexDigits 4 (0xd800 + number)) ++ "'"
    | none => fault.message
  | .unknownEscape _ =>
    match text.surrogates.lookup (here.after '\\') with
    | some number =>
      ⟨(ofString "unknown escape sequence: \\").codePoints ++ [.surrogate number]⟩
    | none => fault.message
  | _ => fault.message

end SourceText

/-! ### Reading -/

/-- An error report about a text of an editor. -/
structure Report where
  /-- The code of the kind of error. -/
  code : String
  /-- What is wrong. -/
  message : SourceText
  /-- The places concerned. -/
  labels : List Label
  /-- Further remarks. -/
  notes : List String
deriving DecidableEq, Repr

namespace Report

/-- A diagnostic as a report. -/
def ofDiagnostic (diagnostic : Diagnostic) : Report :=
  ⟨diagnostic.code, diagnostic.message, diagnostic.labels, diagnostic.notes⟩

/-- The report of an event that is a fault. -/
def ofEvent? (file : String) (text : SourceText) : Event → Option Report
  | .token _ => none
  | .fault fault here =>
    some { ofDiagnostic (fault.diagnostic file here) with message := text.wording fault here }

end Report

/-- The module that a text holds, or everything that is wrong with it; nothing if reading breaks
off. -/
def SourceText.read? (file : String) (text : SourceText) :
    Option (Except (List Report) TypeModule) :=
  if text.breaksOff then none
  else
    match (Scan.ofSource file none text.seen).events.filterMap (Report.ofEvent? file text) with
    | [] => some ((TypeModule.read file none text.seen).mapError fun refusal ↦
        refusal.diagnostics.map .ofDiagnostic)
    | faults => some (.error faults)

/-! ### Texts without surrogates -/

namespace SourceText

@[simp] theorem seen_ofString (text : String) : (ofString text).seen = text := by
  rw [seen, ofString, List.map_map]
  exact (congrArg String.ofList (List.map_id text.toList)).trans (String.ofList_toList)

theorem ofString_inj {text other : String} : ofString text = ofString other ↔ text = other := by
  refine ⟨fun h ↦ ?_, fun h ↦ congrArg ofString h⟩
  rw [← seen_ofString text, h, seen_ofString]

theorem surrogates_ofString (text : String) : (ofString text).surrogates = [] := by
  have hchars (here : Position) (cs : List Char) :
      CodePoint.surrogates here (cs.map .char) = [] := by
    induction cs generalizing here with
    | nil => rfl
    | cons c rest ih => exact ih (here.after c)
  exact hchars .first text.toList

/-- Reading a text without surrogates does not break off. -/
theorem breaksOff_ofString (text : String) : (ofString text).breaksOff = false := by
  rw [breaksOff, surrogates_ofString, List.any_nil]

/-- About a text without surrogates a fault is worded as ever. -/
theorem wording_ofString (text : String) (fault : Lexeme.Fault) (here : Position) :
    (ofString text).wording fault here = fault.message := by
  unfold wording
  rw [surrogates_ofString]
  cases fault <;> rfl

/-- A text without surrogates is read as a source. -/
theorem read?_ofString (file text : String) :
    read? file (ofString text) = some ((TypeModule.read file none text).mapError fun refusal ↦
      refusal.diagnostics.map .ofDiagnostic) := by
  have hevent : Report.ofEvent? file (ofString text) =
      fun event ↦ (event.diagnostic? file).map .ofDiagnostic := by
    funext event
    cases event with
    | token token => rfl
    | fault fault here =>
      rw [Report.ofEvent?, wording_ofString]
      rfl
  have hevents : (Scan.ofSource file none text).events.filterMap
      (Report.ofEvent? file (ofString text)) =
        ((Scan.ofSource file none text).diagnostics file).map .ofDiagnostic := by
    rw [Scan.diagnostics, List.map_filterMap, hevent]
  rw [read?, breaksOff_ofString, if_neg Bool.false_ne_true, seen_ofString, hevents]
  cases hfaults : (Scan.ofSource file none text).diagnostics file with
  | nil => rfl
  | cons fault others =>
    have hread : TypeModule.read file none text = .error ⟨fault :: others⟩ := by
      simp only [TypeModule.read, TokenList.read, hfaults]
    rw [hread]
    rfl

end SourceText

end Editor

end WatTypes
