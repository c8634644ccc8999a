import WatTypes.CommandLine.Run
import WatTypes.Proofs.Outlining.Parts
import WatTypes.Proofs.Rendering.ControlSequences

/-!
# Colours and the text of diagnostics

Colours put the codes of styles around pieces of the rows of a diagnostic. Where a text breaks off
within a control sequence right in front of such a code, the code does not complete it, and neither
does what stands there without colours: the end of the row, or whatever follows the bracket behind
the code of the diagnostic, which ends all control sequences in front of it. So the codes are taken
away again, and nothing else is (`withoutControlSequences_painted_append`). With colours or without,
a diagnostic is the same text on a stream that shows none (`withoutControlSequences_render`), and
settings that ask for colours do not change what is reported there (`shown_report`).
-/

set_option autoImplicit false
set_option relaxedAutoImplicit false

namespace WatTypes

open Text

namespace Diagnostic

/-! ### Painted texts -/

theorem isControlSequence_code (style : Style) : IsControlSequence style.code.toList := by
  cases style <;> decide

section

variable (color : Bool) (style : Style)

/-- Assumes: a text in which no control sequence starts that what follows ends. The codes of a style
around the text are taken away, and otherwise what is taken from the text alone. -/
theorem withoutControlSequences_painted_append {text : String} {rest : List Char}
    (h : ¬ Straddles text.toList rest) :
    withoutControlSequences ((painted color style text).toList ++ rest) =
      withoutControlSequences text.toList ++ withoutControlSequences rest := by
  cases color with
  | false => exact withoutControlSequences_append h
  | true =>
    have hend : ¬ Straddles text.toList (Style.plain.code.toList ++ rest) :=
      not_straddles_of_head? _ (by simp [Style.code])
    rw [painted, if_pos rfl, String.toList_append, String.toList_append, List.append_assoc,
      List.append_assoc, withoutControlSequences_code (isControlSequence_code style),
      withoutControlSequences_append hend,
      withoutControlSequences_code (isControlSequence_code .plain)]

/-- At the end of a row the text may be any. -/
theorem withoutControlSequences_painted (text : String) :
    withoutControlSequences (painted color style text).toList =
      withoutControlSequences text.toList := by
  have hnothing : ¬ Straddles text.toList [] := not_straddles_of_head? _ (by simp)
  have hpainted := withoutControlSequences_painted_append color style hnothing
  rwa [List.append_nil, withoutControlSequences_nil, List.append_nil] at hpainted

/-! ### Rows -/

/-- A mark of the frame is what it is without colours, whatever comes behind. -/
theorem withoutControlSequences_frame_append {mark : String} (h : '\x1b' ∉ mark.toList)
    (rest : List Char) :
    withoutControlSequences (("  " ++ painted color .frame mark).toList ++ rest) =
      ("  " ++ mark).toList ++ withoutControlSequences rest := by
  rw [String.toList_append, String.toList_append, List.append_assoc, List.append_assoc,
    withoutControlSequences_append_of_notMem (by decide),
    withoutControlSequences_painted_append _ _ (not_straddles_of_notMem h rest),
    withoutControlSequences_of_notMem h]

theorem withoutControlSequences_gutter_append {number : String} (h : '\x1b' ∉ number.toList)
    (rest : List Char) :
    withoutControlSequences ((gutter color number).toList ++ rest) =
      (gutter false number).toList ++ withoutControlSequences rest := by
  refine withoutControlSequences_frame_append color ?_ rest
  simp [rightAligned, h]

theorem notMem_toString (number : Int) : '\x1b' ∉ (toString number).toList := by
  intro hmem
  rcases Outline.isDigit_of_mem_toString hmem with hminus | hdigit
  · exact absurd hminus (by decide)
  · exact absurd hdigit (by decide)

theorem withoutControlSequences_header (diagnostic : Diagnostic) :
    withoutControlSequences (header color diagnostic).toList =
      withoutControlSequences (header false diagnostic).toList := by
  have hbracket (rest : List Char) :
      ¬ Straddles ("error[" ++ diagnostic.code ++ "]").toList rest := by
    rw [String.toList_append]
    exact not_straddles_of_isFinal (by decide) (by decide) _ rest
  rw [header, header, String.toList_append, String.toList_append,
    withoutControlSequences_painted_append _ _ (hbracket _),
    withoutControlSequences_painted_append _ _ (hbracket _), withoutControlSequences_painted,
    withoutControlSequences_painted]

theorem withoutControlSequences_sourceRow (number : Int) (line : String) :
    withoutControlSequences (sourceRow color number line).toList =
      withoutControlSequences (sourceRow false number line).toList := by
  simp only [sourceRow, String.toList_append, List.append_assoc,
    withoutControlSequences_gutter_append _ (notMem_toString number)]

theorem withoutControlSequences_emptyGutter_append (rest : List Char) :
    withoutControlSequences ((gutter color "").toList ++ rest) =
      (gutter false "").toList ++ withoutControlSequences rest :=
  withoutControlSequences_gutter_append color (by decide) rest

theorem withoutControlSequences_emptyGutter :
    withoutControlSequences (gutter color "").toList =
      withoutControlSequences (gutter false "").toList := by
  have hgutter := withoutControlSequences_emptyGutter_append color []
  have hplain := withoutControlSequences_emptyGutter_append false []
  rw [List.append_nil] at hgutter hplain
  rw [hgutter, hplain]

theorem withoutControlSequences_carets (span : Span) :
    withoutControlSequences (carets color span).toList =
      withoutControlSequences (carets false span).toList := by
  have hspace : '\x1b' ∉ " ".toList := by decide
  have hpadding : '\x1b' ∉ (repeated (span.first.column - 1) ' ').toList := by simp [repeated]
  simp only [carets, String.toList_append, List.append_assoc,
    withoutControlSequences_emptyGutter_append, withoutControlSequences_append_of_notMem hspace,
    withoutControlSequences_append_of_notMem hpadding, withoutControlSequences_painted]

theorem withoutControlSequences_remark (message : String) :
    withoutControlSequences (gutter color "" ++ "   " ++ painted color .error message).toList =
      withoutControlSequences
        (gutter false "" ++ "   " ++ painted false .error message).toList := by
  have hspaces : '\x1b' ∉ "   ".toList := by decide
  simp only [String.toList_append, List.append_assoc, withoutControlSequences_emptyGutter_append,
    withoutControlSequences_append_of_notMem hspaces, withoutControlSequences_painted]

/-- Behind an arrow or an equals sign of the frame, a row goes on as it would without colours. -/
theorem withoutControlSequences_marked {mark : String} (h : '\x1b' ∉ mark.toList)
    (front text : String) :
    withoutControlSequences ("  " ++ painted color .frame mark ++ front ++ text).toList =
      withoutControlSequences ("  " ++ painted false .frame mark ++ front ++ text).toList := by
  have hrow (either : Bool) :
      withoutControlSequences ("  " ++ painted either .frame mark ++ front ++ text).toList =
        ("  " ++ mark).toList ++ withoutControlSequences (front ++ text).toList := by
    rw [String.append_assoc, String.toList_append, withoutControlSequences_frame_append either h]
  rw [hrow, hrow]

/-! ### Diagnostics -/

/-- What is left of rows without their control sequences. -/
def plainRows (rows : List String) : List (List Char) :=
  rows.map fun row ↦ withoutControlSequences row.toList

theorem plainRows_cons (row : String) (rows : List String) :
    plainRows (row :: rows) = withoutControlSequences row.toList :: plainRows rows := rfl

theorem plainRows_append (rows others : List String) :
    plainRows (rows ++ others) = plainRows rows ++ plainRows others := List.map_append

variable (sources : String → Option String)

/-- The rows for a label are the same but for control sequences. -/
theorem plainRows_renderLabel (label : Label) :
    plainRows (renderLabel color sources label) = plainRows (renderLabel false sources label) := by
  have harrow := @withoutControlSequences_marked color "-->" (by decide) " " label.span.location
  have hsource (number : Int) :
      plainRows ((sourceLine? sources label).map (sourceRow color number)).toList =
        plainRows ((sourceLine? sources label).map (sourceRow false number)).toList := by
    cases sourceLine? sources label with
    | none => rw [Option.map_none, Option.map_none]
    | some line =>
      exact congrArg (fun row ↦ [row]) (withoutControlSequences_sourceRow color number line)
  simp only [renderLabel, plainRows_append, plainRows_cons, apply_ite plainRows, harrow, hsource,
    withoutControlSequences_emptyGutter color, withoutControlSequences_carets color,
    withoutControlSequences_remark color]

/-- The rows of a diagnostic are the same but for control sequences. -/
theorem plainRows_renderLines (diagnostic : Diagnostic) :
    plainRows (renderLines color sources diagnostic) =
      plainRows (renderLines false sources diagnostic) := by
  have hlabels : plainRows (diagnostic.labels.flatMap (renderLabel color sources)) =
      plainRows (diagnostic.labels.flatMap (renderLabel false sources)) := by
    rw [plainRows, plainRows, List.map_flatMap, List.map_flatMap]
    exact congrArg (List.flatMap · _) (funext (plainRows_renderLabel color sources))
  have hnotes : plainRows (diagnostic.notes.map (renderNote color)) =
      plainRows (diagnostic.notes.map (renderNote false)) := by
    rw [plainRows, plainRows, List.map_map, List.map_map]
    exact congrArg (List.map · _)
      (funext (@withoutControlSequences_marked color "=" (by decide) " note: "))
  rw [renderLines, renderLines, List.cons_append, List.cons_append, plainRows_cons, plainRows_cons,
    plainRows_append, plainRows_append, withoutControlSequences_header color, hlabels, hnotes]

/-- Row by row, what is left of a diagnostic is what is left of it without colours. -/
theorem withoutControlSequences_eq_intercalate (diagnostic : Diagnostic) :
    withoutControlSequences (render color sources diagnostic).toList =
      ['\n'].intercalate (plainRows (renderLines false sources diagnostic)) := by
  rw [← plainRows_renderLines color, render, String.toList_intercalate, plainRows]
  exact (withoutControlSequences_intercalate _).trans (congrArg _ (List.map_map ..))

end

/-- The texts that the rows of a diagnostic are made of, where `sources` gives the texts that are at
hand. -/
def texts (sources : String → Option String) (diagnostic : Diagnostic) : List String :=
  diagnostic.code :: diagnostic.message ::
    diagnostic.labels.flatMap (fun label ↦
      label.span.file :: label.message :: (sourceLine? sources label).toList) ++
    diagnostic.notes

theorem notMem_gutter {number : String} (h : '\x1b' ∉ number.toList) :
    '\x1b' ∉ (gutter false number).toList := by
  simp [gutter, painted, rightAligned, h]

theorem notMem_location {span : Span} (h : '\x1b' ∉ span.file.toList) :
    '\x1b' ∉ span.location.toList := by
  have hlocation : span.location =
      span.file ++ ":" ++ toString span.first.line ++ ":" ++ toString span.first.column := rfl
  simp only [hlocation, String.toList_append, List.mem_append, not_or]
  exact ⟨⟨⟨⟨h, by decide⟩, notMem_toString _⟩, by decide⟩, notMem_toString _⟩

/-- Without colours, an escape character in a row for a label is one of the file, of the message or
of the line of source. -/
theorem notMem_renderLabel {sources : String → Option String} {label : Label} {row : String}
    (hfile : '\x1b' ∉ label.span.file.toList) (hmessage : '\x1b' ∉ label.message.toList)
    (hsource : ∀ line ∈ sourceLine? sources label, '\x1b' ∉ line.toList)
    (hrow : row ∈ renderLabel false sources label) : '\x1b' ∉ row.toList := by
  have hgutter : '\x1b' ∉ (gutter false "").toList := notMem_gutter (by decide)
  rw [renderLabel, List.mem_append, List.mem_append, List.mem_append] at hrow
  rcases hrow with ((hplace | hshown) | hmarks) | hremark
  · rcases List.mem_cons.mp hplace with rfl | hbelow
    · simp [painted, notMem_location hfile]
    · exact List.mem_singleton.mp hbelow ▸ hgutter
  · obtain ⟨line, hline, rfl⟩ := Option.map_eq_some_iff.mp (Option.mem_toList.mp hshown)
    have hnumber := notMem_gutter (notMem_toString label.span.first.line)
    simp only [sourceRow, String.toList_append, List.mem_append, not_or]
    exact ⟨⟨hnumber, by decide⟩, hsource line hline⟩
  · split at hmarks
    · rw [List.mem_singleton.mp hmarks]
      simp [carets, painted, repeated, hgutter]
    · exact absurd hmarks List.not_mem_nil
  · split at hremark
    · exact absurd hremark List.not_mem_nil
    · rw [List.mem_singleton.mp hremark]
      simp [painted, hgutter, hmessage]

/-- Without colours, an escape character in a row is one of the texts that the rows are made of. -/
theorem notMem_renderLines {sources : String → Option String} {diagnostic : Diagnostic}
    (h : ∀ text ∈ diagnostic.texts sources, '\x1b' ∉ text.toList) {row : String}
    (hrow : row ∈ renderLines false sources diagnostic) : '\x1b' ∉ row.toList := by
  simp only [texts, List.cons_append, List.forall_mem_cons, List.forall_mem_append,
    List.forall_mem_flatMap] at h
  obtain ⟨hcode, hmessage, hlabels, hnotes⟩ := h
  rw [renderLines, List.cons_append, List.mem_cons, List.mem_append] at hrow
  rcases hrow with rfl | hlabel | hremark
  · simp [header, painted, hcode, hmessage]
  · obtain ⟨label, hmem, hrow⟩ := List.mem_flatMap.mp hlabel
    obtain ⟨hfile, hsaid, hsource⟩ := hlabels label hmem
    have hshown (line : String) (hline : line ∈ sourceLine? sources label) :=
      hsource line (Option.mem_toList.mpr hline)
    exact notMem_renderLabel hfile hsaid hshown hrow
  · obtain ⟨note, hnote, rfl⟩ := List.mem_map.mp hremark
    simp [renderNote, painted, hnotes note hnote]

/-- Colours change nothing in the text of a diagnostic, whatever its parts and the sources are: with
them and without them the same is left when control sequences are taken away, and this is the
diagnostic without colours if no escape character is in its texts. -/
theorem withoutControlSequences_render (sources : String → Option String)
    (diagnostic : Diagnostic) :
    withoutControlSequences (render true sources diagnostic).toList =
        withoutControlSequences (render false sources diagnostic).toList ∧
      ((∀ text ∈ diagnostic.texts sources, '\x1b' ∉ text.toList) →
        withoutControlSequences (render true sources diagnostic).toList =
          (render false sources diagnostic).toList) := by
  have hcolored := withoutControlSequences_eq_intercalate true sources diagnostic
  refine ⟨hcolored.trans (withoutControlSequences_eq_intercalate false sources diagnostic).symm, ?_⟩
  intro htexts
  have hrows : plainRows (renderLines false sources diagnostic) =
      (renderLines false sources diagnostic).map String.toList :=
    List.map_congr_left fun row hrow ↦
      withoutControlSequences_of_notMem (notMem_renderLines htexts hrow)
  have hfeed : "\n".toList = ['\n'] := by decide
  rw [hcolored, hrows, render, String.toList_intercalate, hfeed]

/-- A diagnostic all of whose texts break off within a control sequence. -/
def brokenOff : Diagnostic :=
  ⟨"E\x1b[1", "\x1b[", [⟨.single "a\x1b" ⟨1, 2⟩, "\x1b[1;3"⟩], ["\x1b[ "]⟩

/-- A source whose text breaks off within a control sequence as well. -/
def brokenOffSource : String → Option String := Function.const String (some "\x1b[4")

/-- A diagnostic with a label on the second character of its source. -/
def misspelt : Diagnostic := ⟨"E0", "unknown", [⟨.single "a.wat" ⟨1, 2⟩, "here"⟩], ["see above"]⟩

/-- A source with a word that is not known. -/
def misspeltSource : String → Option String := Function.const String (some "(memry 1)")

theorem withoutControlSequences_render_brokenOff :
    withoutControlSequences (render true brokenOffSource brokenOff).toList =
        withoutControlSequences (render false brokenOffSource brokenOff).toList ∧
      withoutControlSequences (render true misspeltSource misspelt).toList =
        (render false misspeltSource misspelt).toList ∧
      render true misspeltSource misspelt ≠ render false misspeltSource misspelt :=
  ⟨(withoutControlSequences_render brokenOffSource brokenOff).1,
    (withoutControlSequences_render misspeltSource misspelt).2 (by decide +kernel),
    by decide +kernel⟩

end Diagnostic

/-! ### Reports -/

namespace CommandLine.Program

/-- Diagnostic by diagnostic and row by row, what is left of a report is what is left of it without
colours. -/
theorem withoutControlSequences_report (settings : Settings) (name source : String)
    (refusal : Refusal) :
    withoutControlSequences (report settings name source refusal).toList =
      refusal.diagnostics.flatMap fun diagnostic ↦ ['\n'].intercalate (Diagnostic.plainRows
        (diagnostic.renderLines false fun other ↦ if other = name then some source else none)) ++
          ['\n'] := by
  simp only [report, String.toList_join, List.flatMap_map, String.toList_append]
  exact (withoutControlSequences_flatMap_lineFeed _ _).trans
    (congrArg (List.flatMap · _) (funext fun diagnostic ↦
      congrArg (· ++ _) (diagnostic.withoutControlSequences_eq_intercalate _ _)))

/-- Assumes: a stream that shows no colours. A source is reported there alike, whether settings ask
for colours or not. -/
theorem shown_report {world : World} (h : world.showsColors = false) (settings others : Settings)
    (name source : String) (refusal : Refusal) :
    shown world (report settings name source refusal) =
      shown world (report others name source refusal) := by
  have hshown (text : String) :
      shown world text = String.ofList (withoutControlSequences text.toList) := by
    rw [shown, if_neg (by simp [h])]
  rw [hshown, hshown, withoutControlSequences_report, withoutControlSequences_report]

end CommandLine.Program

end WatTypes
