import WatTypes.Proofs.Formatting.Runs

/-!
# Formatting settles

Formatting brings every file that holds a module into canonical form and leaves everything else as
it is, and what it leaves of a file depends on the file and on the settings alone. Formatting again
changes nothing and has nothing to say, checking the format finds only files that are refused, and
checking the files finds the same faults before and after (`run_format_settles`). The settings are
the same before and after, even if their own file is among those that are formatted
(`Formats.nearest`).
-/

set_option autoImplicit false
set_option relaxedAutoImplicit false

namespace WatTypes

open CommandLine

/-! ### Commands on a path -/

/-- Work on a path can begin: the nearest settings can be used, and all sources at the path can be
read. -/
structure CommandLine.World.Ready (world : World) (path : Path) (settings : Settings) : Prop where
  /-- The nearest settings. -/
  nearest : Settings.nearest world.tree path = .ok settings
  /-- Their limit is missing, or a number. -/
  hasLimit : ∃ limit, settings.limit = .ok limit
  /-- The sources can be read. -/
  readable : ∀ file ∈ world.tree.sources path, ∃ source, world.tree.readText file = .ok source

/-- A file is refused: it is read under the settings, and holds no module. -/
def Settings.Refuses (settings : Settings) (tree : FileTree) (file : Path) : Prop :=
  ∃ source refusal, tree.readText file = .ok source ∧
    settings.readModule file.toString source = .ok (.error refusal)

theorem Settings.complaint?_isSome_iff {settings : Settings} {tree : FileTree} {file : Path} :
    (settings.complaint? tree file).isSome = true ↔ settings.Refuses tree file := by
  unfold complaint? Refuses
  cases hsource : tree.readText file with
  | error error => simp
  | ok source =>
    rcases hread : settings.readModule file.toString source with error | (refusal | m) <;>
      simp [hread]

namespace CommandLine

/-- The warning that is given where a path stands for no sources. -/
def noSources (files : List Path) (warning : String) : List String :=
  if files = [] then [warning] else []

/-- How a run ends that has found a fault or none. -/
def Ending.ofFault (fault : Bool) : Ending := if fault then .stopped .refused else .success

theorem Ending.status_ofFault (fault : Bool) : (ofFault fault).status = 1 ↔ fault = true := by
  cases fault <;> decide

section

variable {world after : World} {path : Path} {settings : Settings} {fault : Bool}

theorem Program.settingsFor_apply (hsettings : Settings.nearest world.tree path = .ok settings) :
    Program.settingsFor path world = (.ok settings, world) := by
  simp [Program.settingsFor, Program.orFail, hsettings, Except.mapError]

/-- A run that formats does so with each source at its path, and warns if there is none. -/
theorem run_format {arguments : List String} {operand : String} {onlyCheck : Bool}
    (hrequest : Request.ofArguments world.tree arguments = .ok (.format operand onlyCheck))
    (hsettings : Settings.nearest world.tree (.ofString operand) = .ok settings)
    (hrun : Program.anyOf (Program.formatFile settings onlyCheck)
      (world.tree.sources (.ofString operand)) world = (.ok fault, after)) :
    run arguments world = (.ofFault fault, after.saying []
      (noSources (world.tree.sources (.ofString operand)) "no .wat files found\n")) := by
  simp only [run, hrequest, Request.program, Program.format, Step.bind_apply,
    Program.settingsFor_apply hsettings, Step.state_apply]
  cases hsources : world.tree.sources (.ofString operand) with
  | nil =>
    rw [hsources, Program.anyOf] at hrun
    cases hrun
    simp [Program.complain, World.saying, noSources]
    rfl
  | cons file files =>
    rw [hsources] at hrun
    simp only [hrun, Step.bind_apply, noSources]
    cases fault <;> simp [Ending.ofFault]

/-- A run that checks does so with each source at its path, and warns if there is none. -/
theorem run_check {arguments : List String} {operand : String}
    (hrequest : Request.ofArguments world.tree arguments = .ok (.check operand))
    (hsettings : Settings.nearest world.tree (.ofString operand) = .ok settings)
    (hrun : Program.anyOf (Program.checkFile settings)
      (world.tree.sources (.ofString operand)) world = (.ok fault, after)) :
    run arguments world = (.ofFault fault, after.saying
      (if fault ∨ world.tree.sources (.ofString operand) = [] then []
        else [s!"checked {(world.tree.sources (.ofString operand)).length} file(s) — no errors\n"])
      (noSources (world.tree.sources (.ofString operand)) "warning: no .wat files found\n")) := by
  simp only [run, hrequest, Request.program, Program.check, Step.bind_apply,
    Program.settingsFor_apply hsettings, Step.state_apply]
  cases hsources : world.tree.sources (.ofString operand) with
  | nil =>
    rw [hsources, Program.anyOf] at hrun
    cases hrun
    simp [Program.complain, World.saying, noSources]
    rfl
  | cons file files =>
    rw [hsources] at hrun
    simp only [hrun, Step.bind_apply, noSources]
    cases fault
    · simp [Ending.ofFault, Program.say, World.saying]
    · simp [Ending.ofFault]

end

end CommandLine

/-! ### Settings -/

/-- The settings that are nearest to a path are the same when files have been formatted, their own
file among them or not. -/
theorem Settings.Formats.nearest {settings own : Settings} {limit : Option NestingLimit}
    {before after : FileTree} {files : List Path} {path : Path}
    (hlimit : settings.limit = .ok limit) (h : settings.Formats before after files)
    (hown : Settings.nearest before path = .ok own) : Settings.nearest after path = .ok own := by
  unfold Settings.nearest at hown ⊢
  rw [h.shape.find_settings path]
  split at hown
  · cases hown
  · rename_i location _
    unfold load at hown ⊢
    split at hown
    · cases hown
    · rename_i bytes hbytes
      by_cases hvisited : ∃ file ∈ files, before.find? file = some location
      · obtain ⟨file, hfile, hlocation⟩ := hvisited
        simp only [h.formatted file hfile location hlocation bytes hbytes]
        exact ofBytes_formatted hlimit hown
      · have hkept := h.kept location fun file hfile hlocation ↦ hvisited ⟨file, hfile, hlocation⟩
        simp only [bytesAt_of_node? hkept, hbytes]
        exact hown
  · exact hown

/-! ### Formatting settles -/

section

variable {world : World} {path : Path} {settings : Settings}

/-- Work can begin again when the sources have been formatted. -/
theorem CommandLine.World.Ready.of_formats (h : world.Ready path settings) {after : World}
    (hformats : settings.Formats world.tree after.tree (world.tree.sources path)) :
    after.Ready path settings := by
  obtain ⟨limit, hlimit⟩ := h.hasLimit
  refine ⟨hformats.nearest hlimit h.nearest, h.hasLimit, fun file hfile ↦ ?_⟩
  rw [hformats.shape.sources] at hfile
  exact hformats.exists_readText hlimit (h.readable file hfile)

/-- Assumes: the sources at a path have been formatted, and work on them could begin. None is to be
rewritten, and the same is complained of each as before. -/
theorem Settings.Formats.settled {after : World} (h : world.Ready path settings)
    (hformats : settings.Formats world.tree after.tree (world.tree.sources path)) :
    ∀ file ∈ world.tree.sources path, settings.rewritten? after.tree file = none ∧
      settings.complaint? after.tree file = settings.complaint? world.tree file := by
  obtain ⟨limit, hlimit⟩ := h.hasLimit
  intro file hfile
  obtain ⟨source, hsource⟩ := h.readable file hfile
  exact ⟨hformats.rewritten?_of_visited hlimit hsource ⟨file, hfile, rfl⟩,
    hformats.complaint? hlimit hsource⟩

/-- Some of the files are complained of if and only if some are refused. -/
theorem Settings.exists_refuses_iff {tree : FileTree} {files : List Path} :
    (!(files.filterMap (settings.complaint? tree)).isEmpty) = true ↔
      ∃ file ∈ files, settings.Refuses tree file := by
  rw [← Program.any_isSome, List.any_eq_true]
  simp only [complaint?_isSome_iff]

namespace CommandLine

/-- Assumes: sources at a path that have been formatted, and work on them that could begin. To
format them again, or to check their format, changes no file, says nothing but warnings and
complaints, and fails if and only if some are refused. -/
theorem run_format_of_settled {after : World} {arguments : List String} {operand : String}
    {onlyCheck : Bool} (hready : world.Ready (.ofString operand) settings)
    (hformats : settings.Formats world.tree after.tree (world.tree.sources (.ofString operand)))
    (hrequest : Request.ofArguments world.tree arguments = .ok (.format operand onlyCheck)) :
    (run arguments after).2.tree = after.tree ∧ (run arguments after).2.output = after.output ∧
      ((run arguments after).1.status = 1 ↔
        ∃ file ∈ world.tree.sources (.ofString operand), settings.Refuses after.tree file) := by
  obtain ⟨limit, hlimit⟩ := hready.hasLimit
  have hagain := hready.of_formats hformats
  have hsources := hformats.shape.sources (.ofString operand)
  have hnone : ∀ file ∈ after.tree.sources (.ofString operand),
      settings.rewritten? after.tree file = none := fun file hfile ↦
    (hformats.settled hready file (hsources ▸ hfile)).1
  have hrun := run_format ((hformats.shape.request arguments).trans hrequest) hagain.nearest
    (Program.anyOf_formatFile_of_none onlyCheck hlimit hagain.readable hnone)
  rw [hrun, World.saying_saying]
  refine ⟨rfl, World.output_saying_nil, ?_⟩
  rw [Ending.status_ofFault, Settings.exists_refuses_iff, hsources]

/-- Assumes: sources at a path that have been formatted, and work on them that could begin. Checking
them says the same as before, and fails if and only if some are refused. -/
theorem run_check_of_settled {after : World} {arguments : List String} {operand : String}
    (hready : world.Ready (.ofString operand) settings)
    (hformats : settings.Formats world.tree after.tree (world.tree.sources (.ofString operand)))
    (hrequest : Request.ofArguments world.tree arguments = .ok (.check operand)) :
    ∃ ending lines complaints, run arguments world = (ending, world.saying lines complaints) ∧
      run arguments after = (ending, after.saying lines complaints) ∧
      (ending.status = 1 ↔
        ∃ file ∈ world.tree.sources (.ofString operand), settings.Refuses world.tree file) := by
  obtain ⟨limit, hlimit⟩ := hready.hasLimit
  have hagain := hready.of_formats hformats
  have hsources := hformats.shape.sources (.ofString operand)
  have hbefore := run_check hrequest hready.nearest
    (Program.anyOf_checkFile hlimit hready.readable)
  have hafter := run_check ((hformats.shape.request arguments).trans hrequest) hagain.nearest
    (Program.anyOf_checkFile hlimit hagain.readable)
  have hcomplaints : (after.tree.sources (.ofString operand)).filterMap
        (settings.complaint? after.tree) =
      (world.tree.sources (.ofString operand)).filterMap (settings.complaint? world.tree) := by
    rw [hsources]
    exact List.filterMap_congr fun file hfile ↦ (hformats.settled hready file hfile).2
  rw [World.saying_saying] at hbefore hafter
  rw [hcomplaints, hsources] at hafter
  refine ⟨_, _, _, hbefore, hafter, ?_⟩
  rw [Ending.status_ofFault, Settings.exists_refuses_iff]

/-- Assumes: work on the sources at a path can begin. A run that formats them leaves the tree with
all of them formatted, says which ones it rewrites if each is a file of its own, and fails if and
only if some are refused. -/
theorem exists_run_format {arguments : List String} {operand : String}
    (hrequest : Request.ofArguments world.tree arguments = .ok (.format operand false))
    (hready : world.Ready (.ofString operand) settings) :
    ∃ fault after lines, run arguments world = (.ofFault fault, after) ∧
      settings.Formats world.tree after.tree (world.tree.sources (.ofString operand)) ∧
      after.output = world.output ++ String.join (lines.map (Program.shown world)) ∧
      (((world.tree.sources (.ofString operand)).map world.tree.find?).Nodup →
        lines = ((world.tree.sources (.ofString operand)).filter fun file ↦
          (settings.rewritten? world.tree file).isSome).map (Program.formatLine false)) ∧
      (fault = true ↔
        ∃ file ∈ world.tree.sources (.ofString operand), settings.Refuses world.tree file) := by
  obtain ⟨limit, hlimit⟩ := hready.hasLimit
  obtain ⟨tree, lines, hrun, hformats, hlines⟩ := Program.anyOf_formatFile hlimit hready.readable
  refine ⟨_, _, lines, run_format hrequest hready.nearest hrun, hformats, ?_, hlines,
    Settings.exists_refuses_iff⟩
  rw [World.output_saying_nil]
  rfl

/-- Assumes: work on the sources at a path can begin. Formatting leaves every file that holds a
module in canonical form, and everything else as it is; what it leaves of a file depends on its
bytes and on the settings. To format again changes no file and prints nothing, neither does checking
the format find anything but refused files, and checking the sources finds the same faults before
and after. -/
theorem run_format_settles {arguments checking judging : List String} {operand : String}
    (harguments : Request.ofArguments world.tree arguments = .ok (.format operand false))
    (hchecking : Request.ofArguments world.tree checking = .ok (.format operand true))
    (hjudging : Request.ofArguments world.tree judging = .ok (.check operand))
    (hready : world.Ready (.ofString operand) settings) :
    ∃ ending after, run arguments world = (ending, after) ∧
      (∀ location, (∀ file ∈ world.tree.sources (.ofString operand),
          world.tree.find? file ≠ some location) →
        after.tree.node? location = world.tree.node? location) ∧
      (∀ file ∈ world.tree.sources (.ofString operand), ∀ bytes,
        world.tree.read file = .ok bytes →
          after.tree.read file = .ok (settings.formatted bytes)) ∧
      (∀ file ∈ world.tree.sources (.ofString operand), ∀ source,
        world.tree.readText file = .ok source →
          (∀ m, settings.readModule file.toString source = .ok (.ok m) →
            after.tree.readText file = .ok (m.canonicalText TypeModule.standardIndent)) ∧
          (∀ refusal, settings.readModule file.toString source = .ok (.error refusal) →
            after.tree.read file = world.tree.read file)) ∧
      ((run arguments after).2.tree = after.tree ∧
        (run arguments after).2.output = after.output) ∧
      ((run checking after).2.tree = after.tree ∧
        (run checking after).2.output = after.output ∧
        ((run checking after).1.status = 1 ↔
          ∃ file ∈ world.tree.sources (.ofString operand), settings.Refuses after.tree file)) ∧
      (∀ file ∈ world.tree.sources (.ofString operand),
        settings.Refuses after.tree file ↔ settings.Refuses world.tree file) ∧
      ∃ judgement lines complaints,
        run judging world = (judgement, world.saying lines complaints) ∧
        run judging after = (judgement, after.saying lines complaints) ∧
        (judgement.status = 1 ↔
          ∃ file ∈ world.tree.sources (.ofString operand), settings.Refuses world.tree file) := by
  obtain ⟨limit, hlimit⟩ := hready.hasLimit
  obtain ⟨fault, after, -, hrun, hformats, -⟩ := exists_run_format harguments hready
  obtain ⟨htree, houtput, -⟩ := run_format_of_settled hready hformats harguments
  refine ⟨.ofFault fault, after, hrun, hformats.kept, ?_, ?_, ⟨htree, houtput⟩,
    run_format_of_settled hready hformats hchecking, ?_,
    run_check_of_settled hready hformats hjudging⟩
  · exact fun file hfile bytes ↦ hformats.read_of_mem hfile
  · intro file hfile source hsource
    exact ⟨fun m ↦ hformats.readText_of_readModule hlimit hfile hsource,
      fun refusal ↦ hformats.read_of_refused hlimit hfile hsource⟩
  · intro file hfile
    rw [← Settings.complaint?_isSome_iff, ← Settings.complaint?_isSome_iff,
      (hformats.settled hready file hfile).2]

end CommandLine

end

/-- A tree with a file that holds a module but not its canonical form, and one that holds none. -/
def unsettledTree : FileTree :=
  ⟨[], [(["a.wat"], .file "(memory  1)\r\n".toUTF8), (["b.wat"], .file "(".toUTF8)]⟩

/-- Nothing but that tree. -/
def unsettledWorld : CommandLine.World := ⟨unsettledTree, .empty, false, true, "", ""⟩

theorem sources_unsettledTree :
    unsettledTree.sources (.ofString ".") = [⟨false, ["a.wat"]⟩, ⟨false, ["b.wat"]⟩] := by
  have hplace : unsettledTree.find? (.ofString ".") = some [] := rfl
  have hdirectory : unsettledTree.isDirectory [] = true := rfl
  have hwalk : unsettledTree.walk [] = [["a.wat"], ["b.wat"]] :=
    List.mergeSort_of_pairwise (by decide)
  simp only [FileTree.sources, hplace, hdirectory, hwalk, if_true]
  rfl

theorem ready_unsettledWorld : unsettledWorld.Ready (.ofString ".") .standard := by
  refine ⟨rfl, ⟨none, rfl⟩, fun file hfile ↦ ?_⟩
  have hcases : file = ⟨false, ["a.wat"]⟩ ∨ file = ⟨false, ["b.wat"]⟩ := by
    simpa [unsettledWorld, sources_unsettledTree] using hfile
  rcases hcases with rfl | rfl
  · exact ⟨_, FileTree.decoded_toUTF8 "(memory  1)\r\n"⟩
  · exact ⟨_, FileTree.decoded_toUTF8 "("⟩

open CommandLine in
theorem run_format_settles_unsettledWorld :
    Request.ofArguments unsettledTree ["format"] = .ok (.format "." false) ∧
      ∃ ending after, run ["format"] unsettledWorld = (ending, after) ∧
        (run ["format"] after).2.tree = after.tree ∧
        (run ["format", "--check"] after).2.output = after.output := by
  obtain ⟨ending, after, hrun, -, -, -, ⟨htree, -⟩, ⟨-, houtput, -⟩, -⟩ :=
    @run_format_settles unsettledWorld .standard ["format"] ["format", "--check"] ["check"] "." rfl
      rfl rfl ready_unsettledWorld
  exact ⟨rfl, ending, after, hrun, htree, houtput⟩

end WatTypes
