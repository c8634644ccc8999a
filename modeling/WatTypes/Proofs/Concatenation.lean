import WatTypes.Proofs.Relocation
import WatTypes.Proofs.RoundTrip
import WatTypes.Proofs.Sources

/-!
# Sources one after the other

A source that is read, a line feed, and another source that is read make a source that is read, into
the tokens of the first one and those of the second one, which stand as many lines further down as
the first one and the line feed take (`read_concatenation`). Whatever the first source ends in, the
line feed ends it: a part of a gap stays one (`GapPart.append_lineFeed`), and what a lexeme could
stand before it still can (`Lexeme.MayPrecede.append_lineFeed`). Two runs of fields are read as one
run, and written one behind the other (`canonicalText_append`).
-/

set_option autoImplicit false
set_option relaxedAutoImplicit false

namespace WatTypes

open Grammar Lexeme Lexeme.Syntax

/-! ### Tokens -/

section

variable {file : String} {here : Position} {rest other : List Char}

/-- A part of a gap is one in front of a further line. -/
theorem GapPart.append_lineFeed {part : List Char} (h : GapPart rest part) :
    GapPart (rest ++ '\n' :: other) part := by
  cases h with
  | blank hc => exact .blank hc
  | blockComment hinside => exact .blockComment hinside
  | lineComment hcomment hend =>
    refine .lineComment hcomment (.inr ?_)
    rcases hend with rfl | hfeed
    · rfl
    · rw [List.head?_append, hfeed]
      rfl

/-- What a lexeme can stand before, it can stand before with a further line behind. -/
theorem Lexeme.MayPrecede.append_lineFeed {lexeme : Lexeme} (h : MayPrecede lexeme rest) :
    MayPrecede lexeme (rest ++ '\n' :: other) := by
  cases rest with
  | nil => cases lexeme <;> simp [MayPrecede, isIdChar] <;> decide
  | cons c others => cases lexeme <;> exact h

/-- Assumes: a text has tokens from a position on, and another text has tokens from behind it and a
line feed on. Both with the line feed between them have the tokens of both. -/
theorem Tokenized.append_lineFeed {text : List Char} {tokens others : List Token}
    (h : Tokenized file here text tokens)
    (hother : Tokenized file (here.afterAll (text ++ ['\n'])) other others) :
    Tokenized file here (text ++ '\n' :: other) (tokens ++ others) := by
  induction h with
  | nil =>
    have hblank : GapPart other ['\n'] := .blank (by decide)
    have hline : Tokenized file _ (['\n'] ++ other) others := .gapPart hblank hother
    exact hline
  | gapPart hpart _ ih =>
    rw [List.append_assoc, Position.afterAll_append] at hother
    rw [List.append_assoc]
    exact .gapPart hpart.append_lineFeed (ih hother)
  | token hspells hrest _ ih =>
    rw [List.append_assoc, Position.afterAll_append] at hother
    rw [List.append_assoc]
    exact .token hspells hrest.append_lineFeed (ih hother)

/-- How many lines a text and a line feed behind it take. -/
def lineCount (source : String) : Int := 1 + source.toList.count '\n'

/-- Assumes: two sources are read. With a line feed between them they are read into the tokens of
the first one and, further down, those of the second one. -/
theorem TokenList.read_append {limit : Option NestingLimit} {first second : String}
    {tokens others : TokenList} (hfirst : read file limit first = .ok tokens)
    (hsecond : read file limit second = .ok others) :
    read file limit (first ++ "\n" ++ second) =
      .ok ⟨tokens.body ++ others.body.map (Token.relocated (Span.down (lineCount first))),
        others.stop.down (lineCount first)⟩ := by
  obtain ⟨htokens, hnests, -⟩ := read_eq_ok_iff_tokenized.mp hfirst
  obtain ⟨hothers, hbehind, hstop⟩ := read_eq_ok_iff_tokenized.mp hsecond
  have hsource : (first ++ "\n" ++ second).toList = first.toList ++ '\n' :: second.toList := by
    simp
  have hline : Position.first.afterAll (first.toList ++ ['\n']) =
      Position.first.down (lineCount first) := Position.afterAll_lines first.toList
  have hmoved : Tokenized file (Position.first.afterAll (first.toList ++ ['\n'])) second.toList
      (others.body.map (Token.relocated (Span.down (lineCount first)))) := by
    rw [hline]
    exact hothers.relocated (Position.afterAll_down _) fun _ _ ↦ rfl
  have hlexemes : lexemesOf (others.body.map (Token.relocated (Span.down (lineCount first)))) =
      lexemesOf others.body := by
    simp [lexemesOf, Function.comp_def]
  have hend : Position.first.afterAll (first.toList ++ '\n' :: second.toList) =
      (Position.first.afterAll second.toList).down (lineCount first) := by
    rw [← List.singleton_append, ← List.append_assoc, Position.afterAll_append, hline,
      Position.afterAll_down]
  refine read_eq_ok_iff_tokenized.mpr ⟨?_, ?_, ?_⟩
  · rw [hsource]
    exact htokens.append_lineFeed hmoved
  · rw [lexemesOf_append, hlexemes]
    exact hnests.append hbehind
  · rw [hsource, hend, hstop, Span.upTo_down]

end

/-! ### Fields -/

/-- Phrases of a kind behind others. -/
theorem Grammar.Phrase.Many.append {α : Type} {phrase : Phrase α} {left right : List Token}
    {values others : List α} (hleft : Phrase.Many phrase left values)
    (hright : Phrase.Many phrase right others) :
    Phrase.Many phrase (left ++ right) (values ++ others) := by
  induction hleft with
  | nil => exact hright
  | cons hfirst _ ih =>
    rw [List.append_assoc, List.cons_append]
    exact .cons hfirst ih

/-- Whether tokens start with the opening of a module in parentheses. -/
def TokenList.OpensModule (tokens : TokenList) : Prop :=
  [.opening, .keyword "module"] <+: lexemesOf tokens.body

instance (tokens : TokenList) : Decidable tokens.OpensModule :=
  inferInstanceAs (Decidable ([.opening, .keyword "module"] <+: lexemesOf tokens.body))

/-- A module whose tokens open none is its fields alone. -/
theorem fields_of_module {tokens : TokenList} {id : Option Id} {fields : List Field}
    (h : Derivation.module tokens.body (id, fields)) (hopens : ¬ tokens.OpensModule) :
    id = none ∧ Derivation.fields tokens.body fields := by
  rcases h with hwrapped | ⟨found, hfound, heq⟩
  · obtain ⟨opening, closing, inner, htokens, hopening, -, parts, ⟨head, others, rfl, hhead, -⟩,
      -⟩ := hwrapped
    obtain ⟨token, rfl, hword⟩ := hhead
    refine absurd ?_ hopens
    rw [TokenList.OpensModule, htokens, Token.keyword?_eq_some_iff.mp hword]
    simp [hopening]
  · cases heq
    exact ⟨rfl, hfound⟩

/-- Fields and further ones behind them are written one behind the other. -/
theorem canonicalText_append {fields others : List Field} (hfields : fields ≠ [])
    (hothers : others ≠ []) (indent : String) (span first second : Span) :
    TypeModule.canonicalText indent ⟨none, fields ++ others, span⟩ =
      TypeModule.canonicalText indent ⟨none, fields, first⟩ ++
        TypeModule.canonicalText indent ⟨none, others, second⟩ := by
  simp only [TypeModule.canonicalText, List.map_append]
  rw [String.intercalate_append_of_ne_nil (by simpa using hfields) (by simpa using hothers)]
  simp only [String.append_assoc]

/-! ### Modules -/

/-- Assumes: two sources are read under the same limit, or without one. With a line feed between
them they are read into the tokens of the first one, and those of the second one as many lines
further down as the first one and the line feed take, the end of the input among them. If both hold
modules, and neither opens with the parenthesis and the keyword of one, then together they hold the
fields of the first and, further down, of the second; and if both have fields, the canonical text is
that of the first and that of the second. -/
theorem read_concatenation (file : String) (limit : Option NestingLimit) (first second : String)
    (tokens others : TokenList) (hfirst : TokenList.read file limit first = .ok tokens)
    (hsecond : TokenList.read file limit second = .ok others) :
    (∃ all, TokenList.read file limit (first ++ "\n" ++ second) = .ok all ∧
      all.toList = tokens.body ++
        others.toList.map (Token.relocated (Span.down (lineCount first)))) ∧
    ∀ m found, TypeModule.read file limit first = .ok m →
      TypeModule.read file limit second = .ok found →
      ¬ tokens.OpensModule → ¬ others.OpensModule →
        ∃ joined, TypeModule.read file limit (first ++ "\n" ++ second) = .ok joined ∧
          joined.id = none ∧
          joined.fields = m.fields ++
            found.fields.map (Field.relocated (Span.down (lineCount first))) ∧
          (m.fields ≠ [] → found.fields ≠ [] → ∀ indent,
            joined.canonicalText indent =
              m.canonicalText indent ++ found.canonicalText indent) := by
  have hread := TokenList.read_append hfirst hsecond
  refine ⟨⟨_, hread, by simp [TokenList.toList, Token.relocated]⟩, ?_⟩
  intro m found hm hfound hopens hothers
  obtain ⟨_, hsame, hmodule, -⟩ := TypeModule.read_eq_ok_iff.mp hm
  rw [hfirst, Except.ok.injEq] at hsame
  subst hsame
  obtain ⟨_, hsame, hbehind, -⟩ := TypeModule.read_eq_ok_iff.mp hfound
  rw [hsecond, Except.ok.injEq] at hsame
  subst hsame
  obtain ⟨hnone, hfields⟩ := fields_of_module hmodule hopens
  obtain ⟨hnull, hfurther⟩ := fields_of_module hbehind hothers
  obtain ⟨id, fields, span⟩ := m
  obtain ⟨other, more, stop⟩ := found
  cases hnone
  cases hnull
  have hall := hfields.append (relocates_fields (Span.down (lineCount first)) hfurther)
  refine ⟨⟨none, fields ++ more.map (Field.relocated (Span.down (lineCount first))), _⟩,
    TypeModule.read_eq_ok_iff.mpr ⟨_, hread, .inr ⟨_, hall, rfl⟩, rfl⟩, rfl, rfl, ?_⟩
  intro hne hmore indent
  rw [canonicalText_append hne (by simpa using hmore) indent _ span stop]
  simp [TypeModule.canonicalText, Function.comp_def, Field.lexemes_relocated]

/-- A memory of some pages at least. -/
def memoryOfSize (pages : Nat) : TypeModule :=
  let place : Span := .single "" .first
  ⟨none, [⟨none, .memory ⟨⟨pages, none⟩, false⟩, place⟩], place⟩

/-- A memory, and a comment that no line feed ends. -/
def commentedAtEnd : String := "(memory 1);;"

/-- A memory on a second line. -/
def onSecondLine : String := "\n(memory 2)"

theorem read_concatenation_memories :
    ∃ tokens others m found joined,
      TokenList.read "" none commentedAtEnd = .ok tokens ∧
      TokenList.read "" none onSecondLine = .ok others ∧
      TypeModule.read "" none commentedAtEnd = .ok m ∧
      TypeModule.read "" none onSecondLine = .ok found ∧
      ¬ tokens.OpensModule ∧ ¬ others.OpensModule ∧ m.fields ≠ [] ∧ found.fields ≠ [] ∧
      TypeModule.read "" none (commentedAtEnd ++ "\n" ++ onSecondLine) = .ok joined ∧
      joined.fields = m.fields ++ found.fields.map (Field.relocated (Span.down 1)) ∧
      joined.canonicalText "" = m.canonicalText "" ++ found.canonicalText "" := by
  have hkeyword : Written "memory".toList (.keyword "memory") :=
    written_of_mem_reservedWords (by decide)
  have harranged {digit gap : List Char} (hdigit : digit ∈ Syntax.integer) (hgap : Gap true gap) :
      Arranged [.opening, .keyword "memory", .integer (String.ofList digit), .closing]
        (['('] ++
          ([] ++ ("memory".toList ++ ([' '] ++ (digit ++ ([] ++ ([')'] ++ (gap ++ [])))))))) :=
    .closely .opening rfl (.cons hkeyword (.blank (by decide) .nil) (by simp) (by simp)
      (.closely (.integer hdigit) rfl (.cons .closing hgap (by simp) (by simp) .nil)))
  have hfirst : Arrangement (memoryOfSize 1).lexemes commentedAtEnd.toList :=
    ⟨[], _, rfl, .nil, harranged (isInteger_iff.mp (by decide) : ['1'] ∈ Syntax.integer)
      (.lastComment rfl (List.not_mem_nil))⟩
  have hsecond : Arrangement (memoryOfSize 2).lexemes onSecondLine.toList :=
    ⟨['\n'], _, rfl, .blank (by decide) .nil,
      harranged (isInteger_iff.mp (by decide) : ['2'] ∈ Syntax.integer) .nil⟩
  obtain ⟨tokens, m, htokens, hlexemes, hm, hspans⟩ :=
    TypeModule.exists_read_of_arrangement "" (by decide : (memoryOfSize 1).WellFormed) hfirst
  obtain ⟨others, found, hothers, hbehind, hfound, hsame⟩ :=
    TypeModule.exists_read_of_arrangement "" (by decide : (memoryOfSize 2).WellFormed) hsecond
  have hopens : ¬ tokens.OpensModule := by
    rw [TokenList.OpensModule, hlexemes]
    decide
  have hnone : ¬ others.OpensModule := by
    rw [TokenList.OpensModule, hbehind]
    decide
  have hne {read : TypeModule} {size : Nat}
      (h : read.withoutSpans = (memoryOfSize size).withoutSpans) : read.fields ≠ [] := by
    intro hnil
    simpa [TypeModule.withoutSpans, memoryOfSize, hnil] using congrArg TypeModule.fields h
  obtain ⟨-, hjoined⟩ := read_concatenation "" none _ _ _ _ htokens hothers
  obtain ⟨joined, hread, -, hfields, htext⟩ := hjoined _ _ hm hfound hopens hnone
  exact ⟨_, _, _, _, joined, htokens, hothers, hm, hfound, hopens, hnone, hne hspans, hne hsame,
    hread, hfields, htext (hne hspans) (hne hsame) ""⟩

end WatTypes
