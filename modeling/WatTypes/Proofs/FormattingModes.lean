import WatTypes.Proofs.FileLocations
import WatTypes.Proofs.Formatting

/-!
# The modes of formatting agree

Checking the format of files changes none, and reports exactly those that formatting would rewrite,
in the same order; it succeeds if and only if formatting succeeds and rewrites none. The standard
input and a file that hold the same text are formatted alike, and are checked alike, where the text
has no carriage returns (`format_modes_agree`). Where it has some, reading the file turns them into
line feeds, and reading the standard input need not (`World.delivered`). The two then agree as far
as they deliver the same text, except for a file that is in canonical form but for its carriage
returns: it is left as it is, while the standard output has none (`run_formatInput_carriageReturn`).
-/

set_option autoImplicit false
set_option relaxedAutoImplicit false

namespace WatTypes

open CommandLine
open Text (asRead)

namespace CommandLine

theorem Ending.status_ofFault_eq_zero (fault : Bool) :
    (ofFault fault).status = 0 ↔ fault = false := by
  cases fault <;> decide

/-! ### Files -/

section

variable {world : World} {settings : Settings}

/-- The files at a path that are to be rewritten. -/
def World.rewritten (world : World) (settings : Settings) (path : Path) : List Path :=
  (world.tree.sources path).filter fun file ↦ (settings.rewritten? world.tree file).isSome

theorem World.rewritten_eq_nil_iff {path : Path} : world.rewritten settings path = [] ↔
    ∀ file ∈ world.tree.sources path, settings.rewritten? world.tree file = none := by
  simp [World.rewritten, List.filter_eq_nil_iff]

/-- Assumes: work on the sources at a path can begin. A run that checks their format changes no
file, says which ones would be rewritten, and succeeds if and only if none is refused or would be
rewritten. -/
theorem exists_run_formatCheck {arguments : List String} {operand : String}
    (hrequest : Request.ofArguments world.tree arguments = .ok (.format operand true))
    (hready : world.Ready (.ofString operand) settings) :
    ∃ ending after, run arguments world = (ending, after) ∧ after.tree = world.tree ∧
      after.output = world.output ++ String.join
        (((world.rewritten settings (.ofString operand)).map (Program.formatLine true)).map
          (Program.shown world)) ∧
      (ending.status = 0 ↔
        (¬ ∃ file ∈ world.tree.sources (.ofString operand), settings.Refuses world.tree file) ∧
          world.rewritten settings (.ofString operand) = []) := by
  obtain ⟨limit, hlimit⟩ := hready.hasLimit
  have hrun := run_format hrequest hready.nearest
    (Program.anyOf_formatFile_true hlimit hready.readable)
  rw [World.saying_saying] at hrun
  refine ⟨_, _, hrun, rfl, ?_, ?_⟩
  · rw [List.append_nil]
    rfl
  · rw [Ending.status_ofFault_eq_zero, World.rewritten_eq_nil_iff, List.any_eq_false]
    simp only [← Settings.complaint?_isSome_iff, Bool.or_eq_true, not_or, not_exists, not_and,
      Bool.not_eq_true, Option.isSome_eq_false_iff, Option.isNone_iff_eq_none]
    exact forall₂_and

/-- Assumes: work on the sources at a path can begin. A run that formats them leaves the tree as it
is if and only if none is to be rewritten. -/
theorem tree_run_format_eq_iff {arguments : List String} {operand : String}
    (hrequest : Request.ofArguments world.tree arguments = .ok (.format operand false))
    (hready : world.Ready (.ofString operand) settings) :
    (run arguments world).2.tree = world.tree ↔
      world.rewritten settings (.ofString operand) = [] := by
  obtain ⟨limit, hlimit⟩ := hready.hasLimit
  rw [World.rewritten_eq_nil_iff]
  constructor
  · intro hsame file hfile
    obtain ⟨fault, after, lines, hrun, hformats, -⟩ := exists_run_format hrequest hready
    rw [hrun] at hsame
    rw [← (hformats.settled hready file hfile).1, hsame]
  · intro hnone
    rw [run_format hrequest hready.nearest
      (Program.anyOf_formatFile_of_none false hlimit hready.readable hnone)]
    rfl

end

/-! ### The standard input -/

section

/-- The text that the standard input delivers where it holds the bytes of a given one. -/
def World.delivered (world : World) (text : String) : String :=
  if world.turnsLineEnds then asRead text else text

theorem World.inputText_of_toUTF8 {world : World} {text : String}
    (h : world.input = text.toUTF8) : world.inputText = .ok (world.delivered text) := by
  unfold World.inputText World.delivered
  rw [h]
  split
  · exact FileTree.decoded_toUTF8 text
  · rw [Text.fromUTF8?_toUTF8]

variable {world : World} {settings : Settings} {limit : Option NestingLimit} {operand : String}
  {arguments : List String} {source text : String}

/-- What is refused on the standard input is complained of, and nothing is written. -/
theorem run_formatInput_of_none {onlyCheck : Bool} {refusal : Refusal}
    (hrequest : Request.ofArguments world.tree arguments = .ok (.formatInput operand onlyCheck))
    (hsettings : Settings.nearest world.tree (.ofString operand) = .ok settings)
    (hsource : world.inputText = .ok source)
    (hread : settings.readModule Program.inputName source = .ok (.error refusal)) :
    run arguments world = (.stopped .refused,
      world.saying [] [Program.report settings Program.inputName source refusal]) := by
  simp [run, hrequest, Request.program, Program.formatInput, Program.settingsFor_apply hsettings,
    Program.readInput, Program.orFail, hsource, Except.mapError, Formatting.ofSource, hread,
    Except.map, Formatting.ofModule, Program.complain, World.saying]

/-- The canonical form of the standard input is written, or only compared with it. -/
theorem run_formatInput_of_some {onlyCheck : Bool} {m : TypeModule}
    (hrequest : Request.ofArguments world.tree arguments = .ok (.formatInput operand onlyCheck))
    (hsettings : Settings.nearest world.tree (.ofString operand) = .ok settings)
    (hsource : world.inputText = .ok source)
    (hread : settings.readModule Program.inputName source = .ok (.ok m)) :
    run arguments world =
      if onlyCheck then
        (.ofFault (decide (m.canonicalText TypeModule.standardIndent ≠ source)), world)
      else (.success, { world with
        output := world.output ++ m.canonicalText TypeModule.standardIndent }) := by
  simp only [run, hrequest, Request.program, Program.formatInput, Step.bind_apply,
    Program.settingsFor_apply hsettings, Program.readInput, Program.orFail, hsource,
    Except.mapError, Formatting.ofSource, hread, Except.map, Formatting.ofModule, Step.state_apply,
    Step.ofExcept_apply]
  by_cases hsame : m.canonicalText TypeModule.standardIndent = source
  · cases onlyCheck <;> simp [hsame, Program.sayRaw, Ending.ofFault]
  · cases onlyCheck <;> simp [hsame, Program.sayRaw, Ending.ofFault]

end

/-! ### The same text in both -/

/-- A text stands on the standard input of a world and in a file of another one, where the same
settings are found, with a limit that means something. -/
structure SameText (world filed : World) (operand file : String) (settings : Settings)
    (text : String) : Prop where
  /-- The settings for the standard input. -/
  inputSettings : Settings.nearest world.tree (.ofString operand) = .ok settings
  /-- The settings for the file. -/
  fileSettings : Settings.nearest filed.tree (.ofString file) = .ok settings
  /-- Their limit means something. -/
  hasLimit : ∃ limit, settings.limit = .ok limit
  /-- The standard input holds the text. -/
  input : world.input = text.toUTF8
  /-- The file holds the text. -/
  content : filed.tree.read (.ofString file) = .ok text.toUTF8

namespace SameText

variable {world filed : World} {operand file : String} {settings : Settings} {text : String}

theorem sources (h : SameText world filed operand file settings text) :
    filed.tree.sources (.ofString file) = [.ofString file] := by
  obtain ⟨location, hlocation, hbytes⟩ := FileTree.read_eq_ok_iff.mp h.content
  have hdirectory : filed.tree.isDirectory location = false := by
    unfold FileTree.bytesAt at hbytes
    unfold FileTree.isDirectory
    split at hbytes
    · cases hbytes
    · cases hbytes
    · rename_i hnode
      rw [hnode]
  simp only [FileTree.sources, hlocation, hdirectory, Bool.false_eq_true, if_false]

/-- The file is read with its line breaks as line feeds. -/
theorem readText (h : SameText world filed operand file settings text) :
    filed.tree.readText (.ofString file) = .ok (asRead text) := by
  obtain ⟨location, hlocation, hbytes⟩ := FileTree.read_eq_ok_iff.mp h.content
  exact FileTree.readText_eq_ok_iff.mpr
    ⟨location, _, hlocation, hbytes, FileTree.decoded_toUTF8 text⟩

theorem ready (h : SameText world filed operand file settings text) :
    filed.Ready (.ofString file) settings := by
  refine ⟨h.fileSettings, h.hasLimit, fun found hfound ↦ ?_⟩
  rw [h.sources, List.mem_singleton] at hfound
  rw [hfound]
  exact ⟨_, h.readText⟩

/-- Checking the file succeeds if and only if it holds a module, as its canonical text. -/
theorem status_formatCheck_eq_zero_iff {arguments : List String}
    (h : SameText world filed operand file settings text)
    (hrequest : Request.ofArguments filed.tree arguments = .ok (.format file true)) :
    (run arguments filed).1.status = 0 ↔
      settings.canonicalForm? (asRead text) = some (asRead text) := by
  obtain ⟨limit, hlimit⟩ := h.hasLimit
  obtain ⟨ending, after, hrun, -, -, hstatus⟩ := exists_run_formatCheck hrequest h.ready
  have hrefuses : settings.Refuses filed.tree (.ofString file) ↔
      settings.canonicalForm? (asRead text) = none := by
    rw [Settings.canonicalForm?_eq_none_iff hlimit (Path.ofString file).toString]
    simp only [Settings.Refuses, h.readText, Settings.readModule_of_limit hlimit, Except.ok.injEq,
      exists_eq_left', exists_and_left]
  simp only [hrun, hstatus, World.rewritten_eq_nil_iff, h.sources, List.mem_singleton,
    exists_eq_left, forall_eq, hrefuses, Settings.rewritten?, h.readText]
  cases hform : settings.canonicalForm? (asRead text) <;> simp

/-- A file that is formatted is read as the canonical form of its text. -/
theorem readText_run_format {arguments : List String} {canonical : String}
    (h : SameText world filed operand file settings text)
    (hrequest : Request.ofArguments filed.tree arguments = .ok (.format file false))
    (hform : settings.canonicalForm? (asRead text) = some canonical) :
    (run arguments filed).2.tree.readText (.ofString file) = .ok canonical := by
  obtain ⟨limit, hlimit⟩ := h.hasLimit
  obtain ⟨fault, after, lines, hrun, hformats, -⟩ := exists_run_format hrequest h.ready
  have hmem : Path.ofString file ∈ filed.tree.sources (.ofString file) :=
    h.sources ▸ List.mem_singleton_self _
  rw [hrun, hformats.readText_of_visited hlimit h.readText ⟨_, hmem, rfl⟩, hform, Option.getD_some]

/-- A file that is formatted holds a canonical text if and only if this is the canonical form of
what the file is read as, and the file is not one that is read as it but holds other bytes, which is
left as it is. -/
theorem read_run_format_eq_iff {arguments : List String} {source canonical : String}
    (h : SameText world filed operand file settings text)
    (hrequest : Request.ofArguments filed.tree arguments = .ok (.format file false))
    (hcanonical : settings.canonicalForm? source = some canonical) :
    (run arguments filed).2.tree.read (.ofString file) = .ok canonical.toUTF8 ↔
      settings.canonicalForm? (asRead text) = some canonical ∧
        (asRead text = canonical → text = canonical) := by
  obtain ⟨limit, hlimit⟩ := h.hasLimit
  obtain ⟨fault, after, lines, hrun, hformats, -⟩ := exists_run_format hrequest h.ready
  have hmem : Path.ofString file ∈ filed.tree.sources (.ofString file) :=
    h.sources ▸ List.mem_singleton_self _
  have hown := Settings.canonicalForm?_of_canonicalForm? hlimit hcanonical
  have hplain : text = canonical → asRead text = canonical :=
    fun hsame ↦ hsame ▸ Settings.asRead_of_canonicalForm? hlimit (hsame ▸ hcanonical)
  rw [hrun, hformats.read_of_mem hmem h.content, Except.ok.injEq]
  cases hform : settings.canonicalForm? (asRead text) with
  | none =>
    rw [Settings.formatted_of_none (FileTree.decoded_toUTF8 text) hform, Text.toUTF8_inj]
    refine iff_of_false (fun hsame ↦ ?_) fun hnone ↦ Option.some_ne_none _ hnone.1.symm
    rw [hplain hsame, hown] at hform
    cases hform
  | some found =>
    simp only [Settings.formatted, FileTree.decoded_toUTF8, hform, Option.some.injEq]
    split
    · rename_i hfound
      rw [Text.toUTF8_inj, hfound]
      exact ⟨fun hsame ↦ ⟨hplain hsame, fun _ ↦ hsame⟩, fun hread ↦ hread.2 hread.1⟩
    · rename_i hother
      rw [Text.toUTF8_inj]
      exact ⟨fun hsame ↦ ⟨hsame, fun hread ↦ absurd (hsame.trans hread.symm) hother⟩, And.left⟩

/-- The standard input is in canonical form if and only if the file is and both deliver the same
text. -/
theorem canonicalForm?_delivered_iff (h : SameText world filed operand file settings text) :
    settings.canonicalForm? (world.delivered text) = some (world.delivered text) ↔
      settings.canonicalForm? (asRead text) = some (asRead text) ∧
        (world.turnsLineEnds = true ∨ '\r' ∉ text.toList) := by
  obtain ⟨limit, hlimit⟩ := h.hasLimit
  cases hturns : world.turnsLineEnds with
  | true => simp [World.delivered, hturns]
  | false =>
    simp only [World.delivered, hturns, Bool.false_eq_true, if_false, false_or,
      ← Text.asRead_eq_self_iff]
    constructor
    · intro hform
      have hsame := Settings.asRead_of_canonicalForm? hlimit hform
      exact ⟨hsame.symm ▸ hform, hsame⟩
    · rintro ⟨hform, hsame⟩
      rwa [hsame] at hform

/-- Assumes: the standard input delivers what is refused. Formatting it fails and writes nothing. -/
theorem run_formatInput_of_refused {arguments : List String} {refusal : Refusal}
    (h : SameText world filed operand file settings text)
    (hrequest : Request.ofArguments world.tree arguments = .ok (.formatInput operand false))
    (hread : settings.readModule Program.inputName (world.delivered text) =
      .ok (.error refusal)) :
    (run arguments world).1.status = 1 ∧ (run arguments world).2.output = world.output := by
  rw [run_formatInput_of_none hrequest h.inputSettings (World.inputText_of_toUTF8 h.input) hread]
  exact ⟨rfl, World.output_saying_nil⟩

/-- Assumes: the standard input delivers a module. Formatting it writes the canonical text. -/
theorem run_formatInput_of_module {arguments : List String} {m : TypeModule}
    (h : SameText world filed operand file settings text)
    (hrequest : Request.ofArguments world.tree arguments = .ok (.formatInput operand false))
    (hread : settings.readModule Program.inputName (world.delivered text) = .ok (.ok m)) :
    (run arguments world).1.status = 0 ∧ (run arguments world).2.output =
      world.output ++ m.canonicalText TypeModule.standardIndent := by
  rw [run_formatInput_of_some hrequest h.inputSettings (World.inputText_of_toUTF8 h.input) hread]
  exact ⟨rfl, rfl⟩

/-- Checking the standard input succeeds if and only if it delivers a module, as its canonical
text. -/
theorem status_formatInput_eq_zero_iff {arguments : List String}
    (h : SameText world filed operand file settings text)
    (hrequest : Request.ofArguments world.tree arguments = .ok (.formatInput operand true)) :
    (run arguments world).1.status = 0 ↔
      settings.canonicalForm? (world.delivered text) = some (world.delivered text) := by
  obtain ⟨limit, hlimit⟩ := h.hasLimit
  have hsource := World.inputText_of_toUTF8 h.input
  rcases settings.readModule_cases hlimit Program.inputName (world.delivered text) with
    ⟨refusal, hread, -⟩ | ⟨m, hread, -⟩
  · rw [run_formatInput_of_none hrequest h.inputSettings hsource hread,
      Settings.canonicalForm?_of_refused hlimit hread]
    exact iff_of_false Nat.one_ne_zero (Option.some_ne_none _).symm
  · rw [run_formatInput_of_some hrequest h.inputSettings hsource hread,
      Settings.canonicalForm?_of_module hlimit hread]
    simp [Ending.status_ofFault_eq_zero]

end SameText

/-! ### All modes -/

/-- The modes of formatting agree. Assumes, for a path: a well-formed tree, and that work can begin.
Checking the format of the files changes none and says that it would rewrite those that formatting
says it rewrites, in the same order; it succeeds if and only if formatting succeeds and leaves the
tree as it is. Assumes, for a text: it stands on the standard input and in a file, under the same
settings. Formatting the standard input fails and writes nothing if and only if what it delivers is
refused; otherwise it writes the canonical text of that. The file holds these bytes when it has been
formatted if and only if what it is read as has the same canonical text, and it is not read as this
text while it holds another one: always if the text has no carriage returns. It is read as them if
the standard input delivers what the file is read as. Checking the standard input succeeds if and
only if checking the file does and the standard input turns line ends or the text has no carriage
returns. -/
theorem format_modes_agree :
    (∀ {world : World} {settings : Settings} {arguments checking : List String} {operand : String},
      world.tree.WellFormed → world.Ready (.ofString operand) settings →
      Request.ofArguments world.tree arguments = .ok (.format operand false) →
      Request.ofArguments world.tree checking = .ok (.format operand true) →
      ∃ ending after outcome there, run arguments world = (ending, after) ∧
        run checking world = (outcome, there) ∧
        there.tree = world.tree ∧
        after.output = world.output ++ String.join
          (((world.rewritten settings (.ofString operand)).map (Program.formatLine false)).map
            (Program.shown world)) ∧
        there.output = world.output ++ String.join
          (((world.rewritten settings (.ofString operand)).map (Program.formatLine true)).map
            (Program.shown world)) ∧
        (after.tree = world.tree ↔ world.rewritten settings (.ofString operand) = []) ∧
        (outcome.status = 0 ↔ ending.status = 0 ∧ after.tree = world.tree)) ∧
    ∀ {world filed : World} {operand file : String} {settings : Settings} {text : String}
      {arguments checking filing filedChecking : List String},
      SameText world filed operand file settings text →
      Request.ofArguments world.tree arguments = .ok (.formatInput operand false) →
      Request.ofArguments world.tree checking = .ok (.formatInput operand true) →
      Request.ofArguments filed.tree filing = .ok (.format file false) →
      Request.ofArguments filed.tree filedChecking = .ok (.format file true) →
      ((run arguments world).1.status = 1 ∧ (run arguments world).2.output = world.output ↔
        ∃ refusal, settings.readModule Program.inputName (world.delivered text) =
          .ok (.error refusal)) ∧
      (∀ m, settings.readModule Program.inputName (world.delivered text) = .ok (.ok m) →
        (run arguments world).1.status = 0 ∧
        (run arguments world).2.output =
          world.output ++ m.canonicalText TypeModule.standardIndent ∧
        ((run filing filed).2.tree.read (.ofString file) =
            .ok (m.canonicalText TypeModule.standardIndent).toUTF8 ↔
          settings.canonicalForm? (asRead text) =
              some (m.canonicalText TypeModule.standardIndent) ∧
            (asRead text = m.canonicalText TypeModule.standardIndent →
              text = m.canonicalText TypeModule.standardIndent)) ∧
        ('\r' ∉ text.toList → (run filing filed).2.tree.read (.ofString file) =
          .ok (m.canonicalText TypeModule.standardIndent).toUTF8) ∧
        (world.delivered text = asRead text →
          (run filing filed).2.tree.readText (.ofString file) =
            .ok (m.canonicalText TypeModule.standardIndent))) ∧
      ((run checking world).1.status = 0 ↔ (run filedChecking filed).1.status = 0 ∧
        (world.turnsLineEnds = true ∨ '\r' ∉ text.toList)) := by
  refine ⟨?_, ?_⟩
  · intro world settings arguments checking operand hwellFormed hready harguments hchecking
    obtain ⟨fault, after, lines, hrun, hformats, houtput, hlines, hfault⟩ :=
      exists_run_format harguments hready
    obtain ⟨outcome, there, hcheck, htree, hsaid, hstatus⟩ :=
      exists_run_formatCheck hchecking hready
    have hsame := tree_run_format_eq_iff harguments hready
    rw [hrun] at hsame
    have hdistinct : ((world.tree.sources (.ofString operand)).map world.tree.find?).Nodup := by
      refine FileTree.nodup_find?_sources hwellFormed fun file hfile ↦ ?_
      obtain ⟨source, hsource⟩ := hready.readable file hfile
      obtain ⟨location, -, hlocation, -⟩ := FileTree.readText_eq_ok_iff.mp hsource
      rw [hlocation]
      rfl
    rw [hlines hdistinct, ← World.rewritten] at houtput
    refine ⟨.ofFault fault, after, outcome, there, hrun, hcheck, htree, houtput, hsaid, hsame, ?_⟩
    rw [hstatus, Ending.status_ofFault_eq_zero, hsame, ← hfault, Bool.not_eq_true]
  · intro world filed operand file settings text arguments checking filing filedChecking h
      harguments hchecking hfiling hfiled
    obtain ⟨limit, hlimit⟩ := h.hasLimit
    rw [h.status_formatCheck_eq_zero_iff hfiled, ← h.canonicalForm?_delivered_iff]
    refine ⟨?_, fun m hread ↦ ?_, h.status_formatInput_eq_zero_iff hchecking⟩
    · rcases settings.readModule_cases hlimit Program.inputName (world.delivered text) with
        ⟨refusal, hread, -⟩ | ⟨m, hread, -⟩
      · exact iff_of_true (h.run_formatInput_of_refused harguments hread) ⟨refusal, hread⟩
      · refine iff_of_false (fun hfails ↦ ?_) ?_
        · rw [(h.run_formatInput_of_module harguments hread).1] at hfails
          exact absurd hfails.1 (by decide)
        · rintro ⟨refusal, hrefusal⟩
          rw [hread] at hrefusal
          cases hrefusal
    · have hform := Settings.canonicalForm?_of_module hlimit hread
      have hholds := h.read_run_format_eq_iff hfiling hform
      obtain ⟨hsuccess, houtput⟩ := h.run_formatInput_of_module harguments hread
      refine ⟨hsuccess, houtput, hholds, fun hreturn ↦ hholds.mpr ?_, fun hsame ↦ ?_⟩
      · have hplain := Text.asRead_of_notMem hreturn
        have hdelivered : world.delivered text = asRead text := by
          rw [World.delivered, hplain, ite_self]
        rw [hdelivered] at hform
        exact ⟨hform, hplain.symm.trans⟩
      · rw [hsame] at hform
        exact h.readText_run_format hfiling hform

/-- A text that is in canonical form but for its line break, which is a carriage return and a line
feed. -/
def returnText : String := "(memory 1)\r\n"

/-- The text on the standard input, which may turn line ends, and in a file. -/
def returnWorld (turnsLineEnds : Bool) : World :=
  ⟨⟨[], [(["m.wat"], .file returnText.toUTF8)]⟩, returnText.toUTF8, turnsLineEnds, true, "", ""⟩

theorem sameText_returnWorld (turnsLineEnds : Bool) : SameText (returnWorld turnsLineEnds)
    (returnWorld turnsLineEnds) "." "m.wat" .standard returnText :=
  ⟨rfl, rfl, ⟨none, rfl⟩, rfl, rfl⟩

/-- The modes agree on a tree with a file that is not in canonical form and one that is refused, and
on a text with a carriage return if the standard input turns line ends, but not otherwise. -/
theorem format_modes_agree_returnWorld :
    (∃ ending after outcome there, run ["format"] unsettledWorld = (ending, after) ∧
      run ["format", "--check"] unsettledWorld = (outcome, there) ∧
      there.tree = unsettledTree ∧
      (outcome.status = 0 ↔ ending.status = 0 ∧ after.tree = unsettledTree)) ∧
    ((run ["format", "--stdin", "--check"] (returnWorld true)).1.status = 0 ↔
      (run ["format", "--check", "m.wat"] (returnWorld true)).1.status = 0) ∧
    (run ["format", "--stdin", "--check"] (returnWorld false)).1.status ≠ 0 := by
  obtain ⟨hfiles, hinput⟩ := format_modes_agree
  have hwellFormed : unsettledTree.WellFormed := ⟨by decide, by decide⟩
  obtain ⟨ending, after, outcome, there, hrun, hcheck, htree, -, -, -, hstatus⟩ :=
    @hfiles unsettledWorld .standard ["format"] ["format", "--check"] "." hwellFormed
      ready_unsettledWorld rfl rfl
  obtain ⟨-, -, hturned⟩ :=
    @hinput (returnWorld true) (returnWorld true) "." "m.wat" .standard returnText
      ["format", "--stdin"] ["format", "--stdin", "--check"] ["format", "m.wat"]
      ["format", "--check", "m.wat"] (sameText_returnWorld true) rfl rfl rfl rfl
  obtain ⟨-, -, hkept⟩ :=
    @hinput (returnWorld false) (returnWorld false) "." "m.wat" .standard returnText
      ["format", "--stdin"] ["format", "--stdin", "--check"] ["format", "m.wat"]
      ["format", "--check", "m.wat"] (sameText_returnWorld false) rfl rfl rfl rfl
  refine ⟨⟨ending, after, outcome, there, hrun, hcheck, htree, hstatus⟩,
    hturned.trans (and_iff_left (.inl rfl)), fun hzero ↦ ?_⟩
  rcases (hkept.mp hzero).2 with hturns | hreturn
  · cases hturns
  · exact absurd hreturn (by decide)

/-- The module that the text holds. -/
def returnModule : TypeModule :=
  let place : Span := .single "" .first
  ⟨none, [⟨none, .memory ⟨⟨1, none⟩, false⟩, place⟩], place⟩

/-- The standard output and the file differ where the text has a carriage return: what is written is
not what the file holds, which is left as it is. Where the standard input does not turn line ends
checking it fails, although checking the file succeeds. -/
theorem run_formatInput_carriageReturn :
    (∃ text, run ["format", "--stdin"] (returnWorld true) =
        (.success, { returnWorld true with output := text }) ∧
      (run ["format", "m.wat"] (returnWorld true)).2.tree.read (.ofString "m.wat") =
        .ok returnText.toUTF8 ∧
      text.toUTF8 ≠ returnText.toUTF8) ∧
    (run ["format", "--stdin", "--check"] (returnWorld false)).1.status ≠ 0 ∧
    (run ["format", "--check", "m.wat"] (returnWorld false)).1.status = 0 := by
  have hindent : ∀ c ∈ TypeModule.standardIndent.toList, isGapChar c = true :=
    List.all_eq_true.mp (by decide)
  have hwellFormed : returnModule.WellFormed := by decide
  obtain ⟨m, hm, hspans⟩ := read_canonicalText hwellFormed hindent (nests_lexemes hwellFormed)
    Program.inputName
  have hsame : m.canonicalText TypeModule.standardIndent = asRead returnText := by
    rw [← TypeModule.canonicalText_withoutSpans, hspans, TypeModule.canonicalText_withoutSpans]
    rfl
  have hread : Settings.standard.readModule Program.inputName (asRead returnText) = .ok (.ok m) :=
    congrArg Except.ok hm
  have hform : Settings.standard.canonicalForm? (asRead returnText) = some (asRead returnText) :=
    (Settings.canonicalForm?_eq_some_iff rfl Program.inputName).mpr ⟨m, hm, hsame⟩
  obtain ⟨fault, after, lines, hrun, hformats, -⟩ :=
    @exists_run_format (returnWorld true) .standard ["format", "m.wat"] "m.wat" rfl
      (sameText_returnWorld true).ready
  refine ⟨⟨asRead returnText, ?_, ?_, by decide⟩, fun hzero ↦ ?_, ?_⟩
  · rw [@run_formatInput_of_some (returnWorld true) .standard "." ["format", "--stdin"] _ _ m rfl
      rfl (World.inputText_of_toUTF8 rfl) hread, hsame]
    rfl
  · rw [hrun, hformats.read_of_mem ((sameText_returnWorld true).sources ▸ List.mem_singleton_self _)
      (sameText_returnWorld true).content, Settings.formatted, FileTree.decoded_toUTF8]
    simp only [hform, if_true]
  · have hdelivered := ((sameText_returnWorld false).status_formatInput_eq_zero_iff rfl).mp hzero
    have hreturn := Settings.asRead_of_canonicalForm? rfl hdelivered
    exact absurd hreturn (by decide)
  · exact ((sameText_returnWorld false).status_formatCheck_eq_zero_iff rfl).mpr hform

end CommandLine

end WatTypes
