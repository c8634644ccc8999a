import Mathlib.Data.List.TakeWhile
import WatTypes.Diagnostic.Rendering
import WatTypes.Proofs.Enclosure
import WatTypes.Proofs.Tiling

/-!
# The lines that diagnostics show

A diagnostic is shown with the line of the source that its label starts on. The number of the line
counts line feeds (`Text.LineAt`), but the line is looked up among lines that end at other breaks as
well, and so a break that belongs to no line feed moves all lines behind it (`Text.strayBreaks`,
`Text.length_lines`).

Every label of a refused source starts on a line of the source. If no stray break stands before the
line, then the line is shown, up to its own first break; behind a stray break a piece of an earlier
line is shown in its place (`shown_line_of_refused`).
-/

set_option autoImplicit false
set_option relaxedAutoImplicit false

namespace WatTypes

open Grammar Lexeme Scan

/-! ### Lines -/

namespace Text

/-- The line of a number as positions count lines, with what stands before and behind it: it starts
the text or follows a line feed, and it ends the text or a line feed follows. -/
structure LineAt (text : List Char) (number : Nat) (before line behind : List Char) : Prop where
  /-- The line stands in the text. -/
  whole : before ++ (line ++ behind) = text
  /-- It is as many lines behind the first one as line feeds stand before it. -/
  count_before : before.count '\n' + 1 = number
  /-- Nothing but a line feed stands right before it. -/
  starts : ∀ c ∈ before.getLast?, c = '\n'
  /-- No line feed stands in it. -/
  notMem : '\n' ∉ line
  /-- Nothing but a line feed stands right behind it. -/
  ends : ∀ c ∈ behind.head?, c = '\n'

/-- How many breaks of a text are neither line feeds nor carriage returns right before one. -/
def strayBreaks : List Char → Nat
  | [] => 0
  | '\r' :: '\n' :: rest => strayBreaks rest
  | c :: rest => if isLineBreak c && c != '\n' then strayBreaks rest + 1 else strayBreaks rest

theorem head?_ne_of_not_pair {c : Char} {rest : List Char}
    (h : ∀ others, c = '\r' → rest = '\n' :: others → False) (hreturn : c = '\r') :
    rest.head? ≠ some '\n' := by
  intro hfeed
  obtain ⟨others, hothers⟩ := List.head?_eq_some_iff.mp hfeed
  exact h others hreturn hothers

/-- A carriage return and a line feed are no stray break. -/
theorem strayBreaks_pair (rest : List Char) :
    strayBreaks ('\r' :: '\n' :: rest) = strayBreaks rest := rfl

/-- What the first character of a text adds, unless it is half of a break. -/
theorem strayBreaks_cons {c : Char} {rest : List Char} (h : c = '\r' → rest.head? ≠ some '\n') :
    strayBreaks (c :: rest) =
      if isLineBreak c && c != '\n' then strayBreaks rest + 1 else strayBreaks rest := by
  conv_lhs => unfold strayBreaks
  split
  · rename_i hnil
    cases hnil
  · rename_i behind hpair
    cases hpair
    exact absurd rfl (h rfl)
  · rename_i first others _ hcons
    cases hcons
    rfl

/-- A text with no breaks but line feeds has no stray break. -/
theorem strayBreaks_of_forall {text : List Char} (h : ∀ c ∈ text, isLineBreak c = true → c = '\n') :
    strayBreaks text = 0 := by
  induction text with
  | nil => rfl
  | cons c rest ih =>
    obtain ⟨hfirst, hrest⟩ := List.forall_mem_cons.mp h
    have hreturn : c = '\r' → rest.head? ≠ some '\n' := by
      rintro rfl
      exact absurd (hfirst rfl) (by decide)
    rw [strayBreaks_cons hreturn, ih hrest, if_neg]
    simpa using hfirst

/-- A carriage return and a line feed are a single break. -/
theorem brokenLines_pair (rest : List Char) :
    brokenLines ('\r' :: '\n' :: rest) = ([], ['\r', '\n']) :: brokenLines rest := rfl

/-- What a text is cut into by its first character, unless it is half of a break. -/
theorem brokenLines_cons {c : Char} {rest : List Char} (h : c = '\r' → rest.head? ≠ some '\n') :
    brokenLines (c :: rest) =
      if isLineBreak c then ([], [c]) :: brokenLines rest
      else consToFirstLine c (brokenLines rest) := by
  conv_lhs => unfold brokenLines
  split
  · rename_i hnil
    cases hnil
  · rename_i behind hpair
    cases hpair
    exact absurd rfl (h rfl)
  · rename_i first others _ hcons
    cases hcons
    rfl

theorem brokenLines_ne_nil {text : List Char} (h : text ≠ []) : brokenLines text ≠ [] := by
  intro hnone
  have hwhole := flatten_brokenLines text
  rw [hnone] at hwhole
  exact h hwhole.symm

theorem consToFirstLine_append (c : Char) {pieces : List (List Char × List Char)}
    (h : pieces ≠ []) (others : List (List Char × List Char)) :
    consToFirstLine c (pieces ++ others) = consToFirstLine c pieces ++ others := by
  cases pieces with
  | nil => exact absurd rfl h
  | cons first behind => rfl

/-- Behind a line feed new lines start: it is no half of a pair that goes on. -/
theorem brokenLines_append {front : List Char} (h : ∀ c ∈ front.getLast?, c = '\n')
    (behind : List Char) :
    brokenLines (front ++ behind) = brokenLines front ++ brokenLines behind := by
  fun_induction brokenLines front with
  | case1 => rfl
  | case2 rest ih =>
    have hrest : ∀ c ∈ rest.getLast?, c = '\n' := fun c hc ↦
      h c (List.mem_getLast?_cons (List.mem_getLast?_cons hc))
    rw [List.cons_append, List.cons_append, brokenLines_pair, ih hrest, List.cons_append]
  | case3 c rest hpair hbreak ih =>
    have hrest : ∀ c ∈ rest.getLast?, c = '\n' := fun c hc ↦ h c (List.mem_getLast?_cons hc)
    have hwhole : c = '\r' → (rest ++ behind).head? ≠ some '\n' := by
      intro hreturn hfeed
      cases rest with
      | nil => exact absurd (h c rfl) (by rw [hreturn]; decide)
      | cons d others => exact head?_ne_of_not_pair hpair hreturn hfeed
    rw [List.cons_append, brokenLines_cons hwhole, if_pos hbreak, ih hrest, List.cons_append]
  | case4 c rest hpair hbreak ih =>
    have hne : rest ≠ [] := by
      rintro rfl
      rw [h c rfl] at hbreak
      exact hbreak rfl
    have hrest : ∀ c ∈ rest.getLast?, c = '\n' := fun c hc ↦ h c (List.mem_getLast?_cons hc)
    have hother : c = '\r' → (rest ++ behind).head? ≠ some '\n' := by
      rintro rfl
      exact absurd rfl hbreak
    rw [List.cons_append, brokenLines_cons hother, if_neg hbreak, ih hrest,
      consToFirstLine_append c (brokenLines_ne_nil hne)]

/-- Assumes: the last line of a text is ended by a line feed. The text has one line for each line
feed and for each stray break. -/
theorem length_lines {text : List Char} (h : ∀ c ∈ text.getLast?, c = '\n') :
    (lines text).length = text.count '\n' + strayBreaks text := by
  rw [lines, List.length_map]
  fun_induction brokenLines text with
  | case1 => rfl
  | case2 rest ih =>
    have hrest := ih fun c hc ↦ h c (List.mem_getLast?_cons (List.mem_getLast?_cons hc))
    rw [List.length_cons, strayBreaks_pair, hrest, List.count_cons_of_ne (by decide),
      List.count_cons_self]
    omega
  | case3 c rest hpair hbreak ih =>
    have hrest := ih fun c hc ↦ h c (List.mem_getLast?_cons hc)
    rw [List.length_cons, strayBreaks_cons (head?_ne_of_not_pair hpair), hrest]
    by_cases hfeed : c = '\n'
    · subst hfeed
      rw [List.count_cons_self, if_neg (by simp)]
      omega
    · rw [List.count_cons_of_ne hfeed, if_pos (by simp [hbreak, hfeed])]
      omega
  | case4 c rest hpair hbreak ih =>
    have hrest := ih fun c hc ↦ h c (List.mem_getLast?_cons hc)
    have hfeed : c ≠ '\n' := by
      rintro rfl
      exact hbreak rfl
    have hne : rest ≠ [] := by
      rintro rfl
      exact hfeed (h c rfl)
    obtain ⟨first, others, hpieces⟩ := List.exists_cons_of_ne_nil (brokenLines_ne_nil hne)
    rw [hpieces] at hrest ⊢
    rw [strayBreaks_cons (head?_ne_of_not_pair hpair), List.count_cons_of_ne hfeed,
      if_neg (by simp [hbreak])]
    exact hrest

/-- The first line of a text goes up to the first break. -/
theorem head?_lines (text : List Char) :
    (lines text).head? =
      if text = [] then none else some (text.takeWhile fun c ↦ !isLineBreak c) := by
  rw [lines]
  fun_induction brokenLines text with
  | case1 => rfl
  | case2 rest ih => rfl
  | case3 c rest hpair hbreak ih => simp [hbreak]
  | case4 c rest hpair hbreak ih =>
    rw [if_neg (List.cons_ne_nil c rest), List.takeWhile_cons_of_pos (by simp [hbreak])]
    by_cases hrest : rest = []
    · subst hrest
      rfl
    · obtain ⟨first, others, hpieces⟩ := List.exists_cons_of_ne_nil (brokenLines_ne_nil hrest)
      rw [hpieces, if_neg hrest] at ih
      rw [hpieces]
      exact congrArg (Option.map (c :: ·)) ih

/-- The first break behind a line ends it, since nothing but a line feed stands there. -/
theorem LineAt.takeWhile_eq {text : List Char} {number : Nat} {before line behind : List Char}
    (h : LineAt text number before line behind) :
    (line ++ behind).takeWhile (fun c ↦ !isLineBreak c) =
      line.takeWhile fun c ↦ !isLineBreak c := by
  have hbehind : behind.takeWhile (fun c ↦ !isLineBreak c) = [] := by
    cases behind with
    | nil => rfl
    | cons c rest =>
      rw [h.ends c rfl]
      rfl
  rw [List.takeWhile_append, hbehind, List.append_nil]
  split
  · rename_i hall
    exact ((List.takeWhile_prefix _).eq_of_length hall).symm
  · rfl

/-- Behind a stray break an earlier line is found under the number of a line, and otherwise the line
itself, up to its first break. -/
theorem line?_of_lineAt {text : String} {number : Nat} {before line behind : List Char}
    (h : LineAt text.toList number before line behind) :
    line? text number =
      if strayBreaks before = 0 then
        if line ++ behind = [] then none
        else some (String.ofList (line.takeWhile fun c ↦ !isLineBreak c))
      else ((lines before)[number - 1]?).map String.ofList := by
  have hnumber := h.count_before
  have hindex : (number : Int).toNat - 1 = number - 1 := by omega
  have hlines : lines text.toList = lines before ++ lines (line ++ behind) := by
    rw [← h.whole, lines, brokenLines_append h.starts, List.map_append, lines, lines]
  have hlength := length_lines h.starts
  rw [line?, if_pos (by omega), hindex, hlines]
  split
  · rename_i hnone
    have hfirst : number - 1 - (lines before).length = 0 := by omega
    rw [List.getElem?_append_right (by omega), hfirst, ← List.head?_eq_getElem?, head?_lines,
      h.takeWhile_eq]
    split <;> rfl
  · rw [List.getElem?_append_left (by omega)]

/-- The position behind some characters counts the lines that they end and the characters of the
line that they start. -/
theorem exists_started (front : List Char) :
    ∃ before started, before ++ started = front ∧ (∀ c ∈ before.getLast?, c = '\n') ∧
      '\n' ∉ started ∧ Position.first.afterAll front =
        ⟨(before.count '\n' + 1 : Nat), (started.length + 1 : Nat)⟩ := by
  induction front using List.reverseRecOn with
  | nil => exact ⟨[], [], rfl, by simp, List.not_mem_nil, rfl⟩
  | append_singleton front c ih =>
    obtain ⟨before, started, rfl, hlast, hnone, hposition⟩ := ih
    rw [Position.afterAll_append, hposition, Position.afterAll_cons, Position.afterAll_nil,
      Position.after]
    by_cases hfeed : c = '\n'
    · refine ⟨before ++ started ++ [c], [], List.append_nil _, by simp [hfeed],
        List.not_mem_nil, ?_⟩
      rw [if_pos hfeed, List.count_append, List.count_append, List.count_eq_zero.mpr hnone, hfeed]
      rfl
    · refine ⟨before, started ++ [c], (List.append_assoc ..).symm, hlast, ?_, ?_⟩
      · simpa [hnone] using fun h ↦ hfeed h.symm
      · rw [if_neg hfeed, List.length_append]
        rfl

/-- The position behind the first characters of a text is on a line of the text, or right behind
it. -/
theorem exists_lineAt {text front : List Char} (h : front <+: text) :
    ∃ before line behind, ∃ column ≤ line.length, ∃ number : Nat,
      LineAt text number before line behind ∧
        Position.first.afterAll front = ⟨number, (column + 1 : Nat)⟩ := by
  obtain ⟨rest, rfl⟩ := h
  obtain ⟨before, started, rfl, hlast, hnone, hposition⟩ := exists_started front
  refine ⟨before, started ++ rest.takeWhile (· ≠ '\n'), rest.dropWhile (· ≠ '\n'), started.length,
    by rw [List.length_append]; omega, _, ⟨?_, rfl, hlast, ?_, fun c hc ↦ ?_⟩, hposition⟩
  · rw [List.append_assoc started, List.takeWhile_append_dropWhile, List.append_assoc]
  · rw [List.mem_append, not_or]
    refine ⟨hnone, fun hmem ↦ ?_⟩
    have hall := List.all_eq_true.mp List.all_takeWhile _ hmem
    simp at hall
  · have hstop := List.head?_dropWhile_not (· ≠ '\n') rest
    rw [Option.mem_def.mp hc] at hstop
    simpa using hstop

end Text

/-! ### Where errors are -/

/-- From a place on, a position is that of one of the characters left, or of the end. -/
def Place.Holds (here : Place) (position : Position) : Prop :=
  ∃ front, front <+: here.rest ∧ position = here.position.afterAll front

theorem Place.holds_position (here : Place) : here.Holds here.position :=
  ⟨[], List.nil_prefix, rfl⟩

/-- What is ahead of a later place is ahead of an earlier one. -/
theorem Place.Leads.holds {here there : Place} {position : Position} (h : here.Leads there)
    (hposition : there.Holds position) : here.Holds position := by
  obtain ⟨taken, hrest, hthere⟩ := h
  obtain ⟨front, hfront, rfl⟩ := hposition
  refine ⟨taken ++ front, ?_, ?_⟩
  · rw [← hrest]
    exact List.prefix_append_right_inj taken |>.mpr hfront
  · rw [hthere, Position.afterAll_append]

/-- What is met at a place or behind it: a token of the file or a fault, and where it starts. -/
def Event.IsMet (file : String) (here : Place) : Event → Prop
  | .token found => found.span.file = file ∧ here.Holds found.span.first
  | .fault _ position => here.Holds position

section

variable {file : String} {limit : Option NestingLimit} {depth : Nat} {here stop : Place}
  {event : Event}

/-- What is met from a later place on is met from an earlier one on. -/
theorem Event.IsMet.of_leads (h : event.IsMet file stop) (hleads : here.Leads stop) :
    event.IsMet file here := by
  cases event with
  | token token => exact ⟨h.1, hleads.holds h.2⟩
  | fault fault position => exact hleads.holds h

/-- The faults of a string are met in it. -/
theorem isMet_of_mem_faults (h : event ∈ (readString here).faults) : event.IsMet file here := by
  fun_induction readString here with
  | case1 | case2 | case3 => exact (List.not_mem_nil h).elim
  | case4 here rest hrest escape ih =>
    have hleads : here.Leads (here.past ('\\' :: escape.taken) escape.rest) := by
      apply Place.leads_past
      rw [hrest, List.cons_append, taken_append_rest_readEscape]
    rcases StringBody.mem_faults_cons h with ⟨fault, rfl⟩ | hmem
    · exact here.holds_position
    · exact (ih hmem).of_leads hleads
  | case5 here c rest _ _ _ hrest ih =>
    exact (ih h).of_leads (Place.leads_past hrest.symm)

/-- The event of a word is met where the word starts. -/
theorem isMet_wordEvent (stop : Position) (word : List Char) :
    (wordEvent file here.position stop word).IsMet file here := by
  unfold wordEvent
  split
  · exact ⟨rfl, here.holds_position⟩
  · exact here.holds_position

/-- The events of a stretch are met where it starts or behind. -/
theorem isMet_of_stretch {c : Char} {rest : List Char} {events : List Event}
    (hhere : here.rest = c :: rest)
    (hread : Stretch.read file here c rest = (.events events, stop)) (h : event ∈ events) :
    event.IsMet file here := by
  have hisRead := Stretch.isRead_read file here c rest
  rw [hread] at hisRead
  cases hisRead with
  | openComment | unexpected =>
    cases List.mem_singleton.mp h
    exact here.holds_position
  | string =>
    rcases List.mem_append.mp h with hfault | hend
    · exact (isMet_of_mem_faults hfault).of_leads (Place.leads_past hhere.symm)
    · split at hend
      · split at hend <;> cases List.mem_singleton.mp hend
        · exact ⟨rfl, here.holds_position⟩
        · exact here.holds_position
      · cases List.mem_singleton.mp hend
        exact here.holds_position
  | word _ =>
    cases List.mem_singleton.mp h
    exact isMet_wordEvent _ _

/-- The events of an opening parenthesis are met where it stands. -/
theorem isMet_of_mem_openingEvents {stop : Position}
    (h : event ∈ openingEvents file limit depth here.position stop) : event.IsMet file here := by
  unfold openingEvents at h
  split at h
  · cases List.mem_singleton.mp h
    exact ⟨rfl, here.holds_position⟩
  · split at h
    · rcases List.mem_cons.mp h with rfl | hopened
      · exact here.holds_position
      · cases List.mem_singleton.mp hopened
        exact ⟨rfl, here.holds_position⟩
    · cases List.mem_singleton.mp h
      exact ⟨rfl, here.holds_position⟩

/-- The event of a closing parenthesis is met where it stands. -/
theorem isMet_closingEvent (stop : Position) :
    (closingEvent file depth here.position stop).IsMet file here := by
  unfold closingEvent
  split
  · exact here.holds_position
  · exact ⟨rfl, here.holds_position⟩

/-- All events of a source are met in it. -/
theorem isMet_of_mem_readFrom (h : event ∈ (readFrom file limit depth here).events) :
    event.IsMet file here := by
  fun_induction readFrom file limit depth here with
  | case1 depth here hrest =>
    simp only [endEvents] at h
    split at h
    · cases h
    · cases List.mem_singleton.mp h
      exact here.holds_position
  | case2 depth here c rest hrest stop hread ih =>
    exact (ih h).of_leads (Stretch.leads_of_read hrest hread)
  | case3 depth here c rest hrest stop hread ih =>
    rcases List.mem_append.mp h with hopening | hbehind
    · exact isMet_of_mem_openingEvents hopening
    · exact (ih hbehind).of_leads (Stretch.leads_of_read hrest hread)
  | case4 depth here c rest hrest stop hread ih =>
    rcases List.mem_append.mp h with hclosing | hbehind
    · cases List.mem_singleton.mp hclosing
      exact isMet_closingEvent _
    · exact (ih hbehind).of_leads (Stretch.leads_of_read hrest hread)
  | case5 depth here c rest hrest events stop hread ih =>
    rcases List.mem_append.mp h with hevent | hbehind
    · exact isMet_of_stretch hrest hread hevent
    · exact (ih hbehind).of_leads (Stretch.leads_of_read hrest hread)

end

/-- Rendering shows the line of source under the place of a label and an empty gutter. -/
theorem Diagnostic.exists_renderLabel_eq (color : Bool) (sources : String → Option String)
    (label : Label) : ∃ above below, above.length = 2 ∧
      renderLabel color sources label =
        above ++ (sourceLine? sources label).toList.map (sourceRow color label.span.first.line) ++
          below := by
  have hrows (above shown marks remark : List String) (h : above.length = 2) :
      ∃ first last, first.length = 2 ∧
        above ++ shown ++ marks ++ remark = first ++ shown ++ last :=
    ⟨above, marks ++ remark, h, List.append_assoc _ _ _⟩
  rw [← Option.toList_map]
  exact hrows _ _ _ _ rfl

section

variable {file source : String} {limit : Option NestingLimit} {refusal : Refusal}

/-- Assumes: a source is refused. Its labels are of the file, and start at a character of the source
or at its end. -/
theorem holds_of_refused (h : TypeModule.read file limit source = .error refusal)
    {diagnostic : Diagnostic} (hdiagnostic : diagnostic ∈ refusal.diagnostics) {label : Label}
    (hlabel : label ∈ diagnostic.labels) :
    label.span.file = file ∧ (Place.start source).Holds label.span.first := by
  cases htokens : TokenList.read file limit source with
  | error faults =>
    rw [TypeModule.read, htokens] at h
    cases h
    have hfaults : refusal.diagnostics = (ofSource file limit source).diagnostics file := by
      rw [TokenList.read] at htokens
      split at htokens <;> cases htokens
      rfl
    rw [hfaults] at hdiagnostic
    obtain ⟨event, hevent, hfault⟩ := List.mem_filterMap.mp hdiagnostic
    cases event with
    | token token => cases hfault
    | fault cause position =>
      cases hfault
      cases List.mem_singleton.mp hlabel
      have hmet : Event.IsMet file (.start source) (.fault cause position) :=
        isMet_of_mem_readFrom hevent
      exact ⟨rfl, hmet⟩
  | ok tokens =>
    obtain ⟨error, houtcome, hdiagnostics⟩ := exists_error_of_read htokens h
    obtain ⟨token, hmem, habout⟩ := exists_isAbout_of_error (closesAll_of_read htokens) houtcome
    rw [hdiagnostics] at hdiagnostic
    cases List.mem_singleton.mp hdiagnostic
    rw [habout.labels_eq] at hlabel
    cases List.mem_singleton.mp hlabel
    obtain ⟨-, rfl⟩ := read_eq_ok_iff.mp htokens
    obtain ⟨event, hevent, htoken⟩ := List.mem_filterMap.mp hmem
    cases event with
    | fault cause position => cases htoken
    | token found =>
      cases htoken
      exact isMet_of_mem_readFrom hevent

/-- Assumes: a source is refused, and its text is at hand. Each label starts on a line of the
source, or right behind it, and rendering shows a line of source, if any, under the place of the
label and an empty gutter. If no stray break stands before the line, then the line is shown up to
its own first break, so that it is shown as it is if it holds none; nothing is shown only if the
line is empty and ends the source. Behind a stray break a piece of an earlier line is shown. -/
theorem shown_line_of_refused (h : TypeModule.read file limit source = .error refusal)
    {sources : String → Option String} (hsource : sources file = some source) :
    ∀ diagnostic ∈ refusal.diagnostics, ∀ label ∈ diagnostic.labels, ∃ number : Nat,
      label.span.first.line = number ∧
      (∀ color, ∃ above below, above.length = 2 ∧
        Diagnostic.renderLabel color sources label =
          above ++ (Diagnostic.sourceLine? sources label).toList.map
            (Diagnostic.sourceRow color number) ++ below) ∧
      (∃ before line behind, ∃ column ≤ line.length,
        Text.LineAt source.toList number before line behind ∧
          label.span.first.column = (column + 1 : Nat)) ∧
      ∀ before line behind, Text.LineAt source.toList number before line behind →
        (Text.strayBreaks before = 0 → (∀ c ∈ line, Text.isLineBreak c = false) →
          ∀ shown, Diagnostic.sourceLine? sources label = some shown → shown.toList = line) ∧
        (Text.strayBreaks before = 0 →
          Diagnostic.sourceLine? sources label =
            if line ++ behind = [] then none
            else some (String.ofList (line.takeWhile fun c ↦ !Text.isLineBreak c))) ∧
        (Text.strayBreaks before ≠ 0 → ∃ piece ∈ Text.lines before,
          Diagnostic.sourceLine? sources label = some (String.ofList piece)) := by
  intro diagnostic hdiagnostic label hlabel
  obtain ⟨hfile, front, hfront, hfirst⟩ := holds_of_refused h hdiagnostic hlabel
  obtain ⟨before, line, behind, column, hcolumn, number, hline, hposition⟩ :=
    Text.exists_lineAt hfront
  have hspan : label.span.first = ⟨number, (column + 1 : Nat)⟩ := hfirst.trans hposition
  have hnumber : label.span.first.line = number := by rw [hspan]
  have hshown : Diagnostic.sourceLine? sources label = Text.line? source number := by
    rw [Diagnostic.sourceLine?, hfile, hsource, Option.bind_some, hnumber]
  refine ⟨number, hnumber,
    fun color ↦ hnumber ▸ Diagnostic.exists_renderLabel_eq color sources label,
    ⟨before, line, behind, column, hcolumn, hline, by rw [hspan]⟩, ?_⟩
  clear hcolumn hposition hspan hline
  intro before line behind hline
  rw [hshown, Text.line?_of_lineAt hline]
  refine ⟨fun hstray hplain shown heq ↦ ?_, fun hstray ↦ if_pos hstray, fun hstray ↦ ?_⟩
  · rw [if_pos hstray] at heq
    obtain ⟨-, hpiece⟩ := Option.ite_none_left_eq_some.mp heq
    have hall : line.takeWhile (fun c ↦ !Text.isLineBreak c) = line :=
      List.takeWhile_eq_self_iff.mpr fun c hc ↦ by rw [hplain c hc]; rfl
    rw [← Option.some.inj hpiece, String.toList_ofList, hall]
  · rw [if_neg hstray]
    have hnumber := hline.count_before
    have hlength := Text.length_lines hline.starts
    have hindex : number - 1 < (Text.lines before).length := by omega
    rw [List.getElem?_eq_getElem hindex]
    exact ⟨_, List.getElem_mem hindex, rfl⟩

end

/-- A parenthesis that was not opened, on the second line, which a carriage return and a line feed
are in front of. -/
def returnedSource : String := "(memory 1)\r\n)"

theorem shown_line_of_refused_returnedSource :
    ∃ diagnostic label, TypeModule.read "" none returnedSource = .error ⟨[diagnostic]⟩ ∧
      diagnostic.labels = [label] ∧ label.span.first.line = 2 ∧
        Diagnostic.sourceLine? (Function.const String (some returnedSource)) label = some ")" := by
  have hread : TypeModule.read "" none returnedSource =
      .error ⟨[Fault.unbalancedClosing.diagnostic "" ⟨2, 1⟩]⟩ := by decide +kernel
  have hline : Text.LineAt returnedSource.toList 2 "(memory 1)\r\n".toList [')'] [] :=
    ⟨rfl, by decide, fun _ h ↦ (Option.some.inj h).symm, by decide, by simp⟩
  have hsource : Function.const String (some returnedSource) "" = some returnedSource := rfl
  obtain ⟨number, hnumber, -, -, hshown⟩ :=
    shown_line_of_refused hread hsource _ List.mem_cons_self _ List.mem_cons_self
  have hsame : number = 2 := by
    have : ((2 : Nat) : Int) = number := hnumber
    omega
  subst hsame
  obtain ⟨-, hpiece, -⟩ := hshown _ _ _ hline
  refine ⟨_, _, hread, rfl, rfl, ?_⟩
  rw [hpiece (by decide)]
  rfl

/-- A parenthesis that was not opened, on the second line, behind a form feed in a comment. -/
def formFedSource : String := ";; \x0c\n)"

/-- A form feed in a comment has an empty line shown for the line behind it. -/
theorem sourceLine?_formFedSource :
    ∃ diagnostic label shown, TypeModule.read "" none formFedSource = .error ⟨[diagnostic]⟩ ∧
      diagnostic.labels = [label] ∧ label.span.first.line = 2 ∧
        Text.LineAt formFedSource.toList 2 ";; \x0c\n".toList [')'] [] ∧
          Diagnostic.sourceLine? (Function.const String (some formFedSource)) label = some shown ∧
            shown.toList ≠ [')'] := by
  have hline : Text.LineAt formFedSource.toList 2 ";; \x0c\n".toList [')'] [] :=
    ⟨rfl, by decide, fun _ h ↦ (Option.some.inj h).symm, by decide, by simp⟩
  exact ⟨Fault.unbalancedClosing.diagnostic "" ⟨2, 1⟩, ⟨.single "" ⟨2, 1⟩, ""⟩, "",
    by decide +kernel, rfl, rfl, hline, by decide +kernel, by decide⟩

end WatTypes
