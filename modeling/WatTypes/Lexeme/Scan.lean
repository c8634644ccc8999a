import WatTypes.Lexeme
import WatTypes.Lexeme.Escape
import WatTypes.Lexeme.Number

/-!
# From source text to tokens

A source is read from its first character on. At each place there stands a gap (a blank, a line
comment, a block comment), a parenthesis, or a stretch that gives a token or faults
(`Stretch.read`); reading goes on behind it, whatever it was, so that a source shows all its faults
at once. The outcome is a list of events, tokens and faults in the order in which they are met
(`Scan.ofSource`), and a source without faults has been read into its tokens (`TokenList.read`).

Parentheses are counted as they open and close. A limit on the count is a fault where it is first
exceeded, and the parenthesis is a token all the same.
-/

set_option autoImplicit false
set_option relaxedAutoImplicit false

namespace WatTypes

/-- A place in a source: its position, and the characters from there on. -/
structure Place where
  /-- The position of the next character. -/
  position : Position
  /-- The characters that are left. -/
  rest : List Char
deriving DecidableEq, Repr

namespace Place

/-- The place at the start of a source. -/
def start (source : String) : Place := ⟨.first, source.toList⟩

/-- The place behind a run of characters that leaves `rest`. -/
def past (here : Place) (taken rest : List Char) : Place := ⟨here.position.afterAll taken, rest⟩

end Place

/-- How deep parentheses may nest. -/
structure NestingLimit where
  /-- The greatest allowed number of open parentheses. -/
  depth : Int
  /-- The limit as messages show it. -/
  shown : String
deriving DecidableEq, Repr

/-- The limit given by an integer. -/
def NestingLimit.ofInt (depth : Int) : NestingLimit := ⟨depth, toString depth⟩

/-- What is met while a source is read. -/
inductive Event where
  /-- A token. -/
  | token (token : Token)
  /-- A fault and its position. -/
  | fault (fault : Lexeme.Fault) (position : Position)
deriving DecidableEq, Repr

namespace Event

/-- The token of an event. -/
def token? : Event → Option Token
  | .token found => some found
  | .fault _ _ => none

/-- The diagnostic of an event that is a fault. -/
def diagnostic? (file : String) : Event → Option Diagnostic
  | .token _ => none
  | .fault cause position => some (cause.diagnostic file position)

end Event

namespace Lexeme

/-! ### Comments -/

/-- The block comment that a text starts inside of, `depth` further comments around it, up to and
with the mark that closes the outermost one, and the text behind it. -/
def blockComment? : Nat → List Char → Option (List Char × List Char)
  | _, [] => none
  | depth, '(' :: ';' :: rest =>
    (blockComment? (depth + 1) rest).map fun (taken, after) ↦ ('(' :: ';' :: taken, after)
  | 0, ';' :: ')' :: rest => some ([';', ')'], rest)
  | depth + 1, ';' :: ')' :: rest =>
    (blockComment? depth rest).map fun (taken, after) ↦ (';' :: ')' :: taken, after)
  | depth, c :: rest =>
    (blockComment? depth rest).map fun (taken, after) ↦ (c :: taken, after)

/-! ### Strings -/

/-- The inside of a string literal. -/
structure StringBody where
  /-- The bytes of the text it denotes. -/
  bytes : List UInt8
  /-- The faults of its escapes. -/
  faults : List Event
  /-- Whether a quotation mark closes it. -/
  isClosed : Bool
  /-- The place behind it. -/
  stop : Place

/-- Puts the bytes and the faults of one piece in front of those of the pieces behind it. -/
def StringBody.cons (piece : Except Fault (List UInt8)) (here : Position) (body : StringBody) :
    StringBody :=
  match piece with
  | .ok bytes => { body with bytes := bytes ++ body.bytes }
  | .error fault => { body with faults := .fault fault here :: body.faults }

/-- Reads the inside of a string literal, from behind its opening quotation mark. -/
def readString (here : Place) : StringBody :=
  match _h : here.rest with
  | [] => ⟨[], [], false, here⟩
  | '"' :: rest => ⟨[], [], true, here.past ['"'] rest⟩
  | '\n' :: _ => ⟨[], [], false, here⟩
  | '\\' :: rest =>
    let escape := readEscape rest
    (readString (here.past ('\\' :: escape.taken) escape.rest)).cons escape.bytes here.position
  | c :: rest =>
    (readString (here.past [c] rest)).cons (.ok (String.utf8EncodeChar c)) here.position
termination_by here.rest.length
decreasing_by
  · have shorter := length_rest_readEscape_le rest
    simp only [_h, Place.past, List.length_cons]
    omega
  · simp [_h, Place.past]

/-- The events of a string literal whose opening quotation mark stands at `start`. -/
def StringBody.events (file : String) (start : Position) (body : StringBody) : List Event :=
  body.faults ++
    if body.isClosed then
      match String.fromUTF8? ⟨body.bytes.toArray⟩ with
      | some text => [.token ⟨.string text, .upTo file start body.stop.position⟩]
      | none => [.fault .invalidUtf8 start]
    else [.fault .unterminatedString start]

/-! ### Words -/

/-- The lexeme that a word is. -/
def ofWord : List Char → Except Fault Lexeme
  | [] => .error (.unknownWord "")
  | ['$'] => .error (.emptyName '$')
  | ['@'] => .error (.emptyName '@')
  | '$' :: name => .ok (.id (String.ofList name))
  | '@' :: name => .ok (.annotationHead (String.ofList name))
  | c :: rest =>
    let word := String.ofList (c :: rest)
    if Number.isInteger (c :: rest) then .ok (.integer word)
    else if Number.isFloat (c :: rest) then .ok (.float word)
    else if 'a' ≤ c ∧ c ≤ 'z' then .ok (.keyword word)
    else .error (.unknownWord word)

/-- What a word can be read as. -/
theorem ofWord_cases {word : List Char} {lexeme : Lexeme} (h : ofWord word = .ok lexeme) :
    (∃ name, word = '$' :: name ∧ name ≠ [] ∧ lexeme = .id (String.ofList name)) ∨
    (∃ name, word = '@' :: name ∧ name ≠ [] ∧ lexeme = .annotationHead (String.ofList name)) ∨
    (Number.isInteger word = true ∧ lexeme = .integer (String.ofList word)) ∨
    (Number.isFloat word = true ∧ lexeme = .float (String.ofList word)) ∨
    ∃ c rest, word = c :: rest ∧ ('a' ≤ c ∧ c ≤ 'z') ∧ lexeme = .keyword (String.ofList word) := by
  unfold ofWord at h
  split at h
  · cases h
  · cases h
  · cases h
  · rename_i name hname
    cases h
    exact .inl ⟨name, rfl, hname, rfl⟩
  · rename_i name hname
    cases h
    exact .inr (.inl ⟨name, rfl, hname, rfl⟩)
  · rename_i c rest _ _ _ _
    simp only at h
    split at h
    · rename_i hinteger
      cases h
      exact .inr (.inr (.inl ⟨hinteger, rfl⟩))
    split at h
    · rename_i hfloat
      cases h
      exact .inr (.inr (.inr (.inl ⟨hfloat, rfl⟩)))
    split at h
    · rename_i hletter
      cases h
      exact .inr (.inr (.inr (.inr ⟨c, rest, rfl, hletter, rfl⟩)))
    · cases h

/-- The event of a word that reaches from `start` to `stop`. -/
def wordEvent (file : String) (start stop : Position) (word : List Char) : Event :=
  match ofWord word with
  | .ok lexeme => .token ⟨lexeme, .upTo file start stop⟩
  | .error fault => .fault fault start

end Lexeme

/-! ### Stretches -/

/-- Whether a character between lexemes is passed over. -/
def isGapChar (c : Char) : Bool := c == ' ' || c == '\t' || c == '\n' || c == '\r'

/-- What stands at a place of a source. -/
inductive Stretch where
  /-- A blank or a comment. -/
  | gap
  /-- An opening parenthesis. -/
  | opening
  /-- A closing parenthesis. -/
  | closing
  /-- A word, a string, or something faulty. -/
  | events (events : List Event)
deriving DecidableEq, Repr

/-- Reads what stands at a place, where `c` and `rest` are the characters there, and finds the
place behind it. -/
def Stretch.read (file : String) (here : Place) (c : Char) (rest : List Char) : Stretch × Place :=
  if isGapChar c then (.gap, here.past [c] rest)
  else if c = ';' ∧ rest.head? = some ';' then
    (.gap, here.past (c :: rest.takeWhile (· ≠ '\n')) (rest.dropWhile (· ≠ '\n')))
  else if c = '(' ∧ rest.head? = some ';' then
    match Lexeme.blockComment? 0 rest.tail with
    | some (taken, after) => (.gap, here.past (c :: ';' :: taken) after)
    | none => (.events [.fault .unterminatedComment here.position], here.past (c :: rest) [])
  else if c = '(' then (.opening, here.past [c] rest)
  else if c = ')' then (.closing, here.past [c] rest)
  else if c = '"' then
    let body := Lexeme.readString (here.past [c] rest)
    (.events (body.events file here.position), body.stop)
  else if isIdChar c then
    let word := c :: rest.takeWhile isIdChar
    let stop := here.past word (rest.dropWhile isIdChar)
    (.events [Lexeme.wordEvent file here.position stop.position word], stop)
  else (.events [.fault (.unexpectedChar c) here.position], here.past [c] rest)

/-! ### Every stretch has a length -/

theorem Lexeme.append_of_blockComment? {depth : Nat} {cs taken after : List Char}
    (h : blockComment? depth cs = some (taken, after)) : taken ++ after = cs := by
  fun_induction blockComment? depth cs generalizing taken after with
  | case1 => cases h
  | case2 depth rest ih | case4 depth rest ih =>
    obtain ⟨⟨inner, behind⟩, hinner, heq⟩ := Option.map_eq_some_iff.mp h
    cases heq
    simp [ih hinner]
  | case3 rest => cases h; rfl
  | case5 depth c rest _ _ _ ih =>
    obtain ⟨⟨inner, behind⟩, hinner, heq⟩ := Option.map_eq_some_iff.mp h
    cases heq
    simp [ih hinner]

theorem Lexeme.StringBody.stop_cons (piece : Except Fault (List UInt8)) (here : Position)
    (body : StringBody) : (body.cons piece here).stop = body.stop := by
  cases piece <;> rfl

theorem Lexeme.length_rest_readString_le (here : Place) :
    (readString here).stop.rest.length ≤ here.rest.length := by
  fun_induction readString here with
  | case1 here h => simp [h]
  | case2 here rest h => simp [h, Place.past]
  | case3 here rest h => simp [h]
  | case4 here rest h escape ih =>
    have shorter : escape.rest.length ≤ rest.length := length_rest_readEscape_le rest
    have whole : here.rest.length = rest.length + 1 := by rw [h, List.length_cons]
    rw [StringBody.stop_cons]
    exact Nat.le_trans ih (by simp only [Place.past]; omega)
  | case5 here c rest _ _ _ h ih =>
    have whole : here.rest.length = rest.length + 1 := by rw [h, List.length_cons]
    rw [StringBody.stop_cons]
    exact Nat.le_trans ih (by simp only [Place.past]; omega)

/-- Reading a stretch leaves fewer characters. -/
theorem Stretch.length_rest_read_lt (file : String) (here : Place) (c : Char) (rest : List Char) :
    (Stretch.read file here c rest).2.rest.length < (c :: rest).length := by
  have dropped (keep : Char → Bool) : (rest.dropWhile keep).length ≤ rest.length :=
    (List.dropWhile_sublist keep).length_le
  unfold Stretch.read
  simp only [List.length_cons]
  split
  · simp [Place.past]
  split
  · have := dropped (· ≠ '\n')
    simp only [Place.past]
    omega
  split
  · rename_i h
    split
    · rename_i taken after heq
      have whole := congrArg List.length (Lexeme.append_of_blockComment? heq)
      simp only [List.length_append, List.length_tail] at whole
      simp only [Place.past]
      omega
    · simp [Place.past]
  split
  · simp [Place.past]
  split
  · simp [Place.past]
  split
  · have shorter := Lexeme.length_rest_readString_le (here.past [c] rest)
    simp only [Place.past] at shorter ⊢
    omega
  split
  · have := dropped isIdChar
    simp only [Place.past]
    omega
  · simp [Place.past]

/-! ### Whole sources -/

/-- What reading a stretch of source gives: its events in order, and the position behind it. -/
structure Scan where
  /-- The tokens and the faults. -/
  events : List Event
  /-- The position of the end of the input. -/
  stop : Position
deriving DecidableEq, Repr

namespace Scan

/-- Puts events in front. -/
def prepend (events : List Event) (scan : Scan) : Scan := ⟨events ++ scan.events, scan.stop⟩

/-- The tokens of a scan. -/
def tokens (file : String) (scan : Scan) : TokenList :=
  ⟨scan.events.filterMap Event.token?, .upTo file scan.stop scan.stop⟩

/-- The faults of a scan, as diagnostics. -/
def diagnostics (file : String) (scan : Scan) : List Diagnostic :=
  scan.events.filterMap (Event.diagnostic? file)

/-- The events of an opening parenthesis that brings the number of open ones to `depth`. -/
def openingEvents (file : String) (limit : Option NestingLimit) (depth : Nat)
    (start stop : Position) : List Event :=
  let opened : Event := .token ⟨.opening, .upTo file start stop⟩
  match limit with
  | none => [opened]
  | some ⟨greatest, shown⟩ =>
    if (depth : Int) = greatest + 1 then [.fault (.tooDeep shown) start, opened] else [opened]

/-- The event of a closing parenthesis met with `depth` open ones. -/
def closingEvent (file : String) (depth : Nat) (start stop : Position) : Event :=
  if depth = 0 then .fault .unbalancedClosing start
  else .token ⟨.closing, .upTo file start stop⟩

/-- The events at the end of the input with `depth` open parentheses. -/
def endEvents (depth : Nat) (here : Position) : List Event :=
  if depth = 0 then [] else [.fault .unclosedOpening here]

/-- Reads on from a place, with `depth` parentheses open there. -/
def readFrom (file : String) (limit : Option NestingLimit) (depth : Nat) (here : Place) : Scan :=
  match _h : here.rest with
  | [] => ⟨endEvents depth here.position, here.position⟩
  | c :: rest =>
    match _hread : Stretch.read file here c rest with
    | (.gap, stop) => readFrom file limit depth stop
    | (.opening, stop) =>
      (readFrom file limit (depth + 1) stop).prepend
        (openingEvents file limit (depth + 1) here.position stop.position)
    | (.closing, stop) =>
      (readFrom file limit (depth - 1) stop).prepend
        [closingEvent file depth here.position stop.position]
    | (.events events, stop) => (readFrom file limit depth stop).prepend events
termination_by here.rest.length
decreasing_by
  all_goals
    have shorter := Stretch.length_rest_read_lt file here c rest
    rw [_hread] at shorter
    rw [_h]
    exact shorter

/-- At the end of the input nothing is read. -/
theorem readFrom_of_nil {file : String} {limit : Option NestingLimit} {depth : Nat} {here : Place}
    (h : here.rest = []) :
    readFrom file limit depth here = ⟨endEvents depth here.position, here.position⟩ := by
  rw [readFrom]
  split
  · rfl
  · rename_i hcons
    rw [h] at hcons
    cases hcons

/-- Before the end of the input a stretch is read, and what stands behind it. -/
theorem readFrom_of_cons {file : String} {limit : Option NestingLimit} {depth : Nat} {here : Place}
    {c : Char} {rest : List Char} (h : here.rest = c :: rest) :
    readFrom file limit depth here =
      match Stretch.read file here c rest with
      | (.gap, stop) => readFrom file limit depth stop
      | (.opening, stop) =>
        (readFrom file limit (depth + 1) stop).prepend
          (openingEvents file limit (depth + 1) here.position stop.position)
      | (.closing, stop) =>
        (readFrom file limit (depth - 1) stop).prepend
          [closingEvent file depth here.position stop.position]
      | (.events events, stop) => (readFrom file limit depth stop).prepend events := by
  rw [readFrom]
  split
  · rename_i hnil
    rw [h] at hnil
    cases hnil
  · rename_i first others hcons
    rw [h] at hcons
    cases hcons
    split <;> rename_i hread <;> rw [hread]

/-- Reads a source. -/
def ofSource (file : String) (limit : Option NestingLimit) (source : String) : Scan :=
  readFrom file limit 0 (.start source)

end Scan

/-- The tokens of a source, or all its lexical faults. -/
def TokenList.read (file : String) (limit : Option NestingLimit) (source : String) :
    Except Refusal TokenList :=
  let scan := Scan.ofSource file limit source
  match scan.diagnostics file with
  | [] => .ok (scan.tokens file)
  | faults => .error ⟨faults⟩

end WatTypes
