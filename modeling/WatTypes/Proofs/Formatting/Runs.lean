import WatTypes.Proofs.CanonicalForm
import WatTypes.Proofs.FileShape

/-!
# Commands on several files

A command on several files does its work on one after the other. What checking or formatting a file
says is told by its text: a complaint if it is refused (`Settings.complaint?`), and a line if it is
to be rewritten (`Settings.rewritten?`). Where no file is written, the lines of all files are those
of each, in order (`anyOf_of_forall`). Where files are written, each is left as formatting leaves
its bytes, and everything else as it was (`Settings.Formats`); a file that has been visited is not
rewritten again, and all others are found as they were (`anyOf_formatFile`).
-/

set_option autoImplicit false
set_option relaxedAutoImplicit false

namespace WatTypes

open CommandLine

/-! ### What is said -/

namespace CommandLine.World

/-- The world after lines have been written to the standard output and complaints to the standard
error. -/
def saying (world : World) (lines complaints : List String) : World :=
  { world with
    output := world.output ++ String.join (lines.map (Program.shown world))
    errors := world.errors ++ String.join (complaints.map (Program.shown world)) }

section

variable {world : World} {lines more complaints others : List String}

@[simp] theorem saying_tree : (world.saying lines complaints).tree = world.tree := rfl

@[simp] theorem saying_nil : world.saying [] [] = world := by
  simp [saying]

@[simp] theorem output_saying_nil : (world.saying [] complaints).output = world.output := by
  simp [saying]

/-- Lines said one after the other are said in order. -/
@[simp] theorem saying_saying : (world.saying lines complaints).saying more others =
    world.saying (lines ++ more) (complaints ++ others) := by
  simp only [saying, List.map_append, String.join_append, String.append_assoc]
  rfl

end

end CommandLine.World

namespace Settings

/-- What is complained of a file, if it is refused. -/
def complaint? (settings : Settings) (tree : FileTree) (file : Path) : Option String :=
  match tree.readText file with
  | .error _ => none
  | .ok source =>
    match settings.readModule file.toString source with
    | .ok (.error refusal) => some (Program.report settings file.toString source refusal)
    | _ => none

/-- The text that a file is to be rewritten to, if it holds a module but not its canonical form. -/
def rewritten? (settings : Settings) (tree : FileTree) (file : Path) : Option String :=
  match tree.readText file with
  | .error _ => none
  | .ok source => (settings.canonicalForm? source).filter (· ≠ source)

end Settings

/-! ### Steps -/

section Steps

variable {settings : Settings} {limit : Option NestingLimit} {tree : FileTree} {world : World}
  {file : Path} {source : String}

/-- A source is refused and has no canonical form, or holds a module and has that of the module. -/
theorem Settings.readModule_cases (hlimit : settings.limit = .ok limit) (name source : String) :
    (∃ refusal, settings.readModule name source = .ok (.error refusal) ∧
      settings.canonicalForm? source = none) ∨
    ∃ m, settings.readModule name source = .ok (.ok m) ∧
      settings.canonicalForm? source = some (m.canonicalText TypeModule.standardIndent) := by
  rw [readModule_of_limit hlimit]
  cases hread : TypeModule.read name limit source with
  | error refusal =>
    exact .inl ⟨refusal, rfl, (canonicalForm?_eq_none_iff hlimit name).mpr ⟨refusal, hread⟩⟩
  | ok m => exact .inr ⟨m, rfl, (canonicalForm?_eq_some_iff hlimit name).mpr ⟨m, hread, rfl⟩⟩

namespace CommandLine.Program

theorem readFile_apply (hsource : world.tree.readText file = .ok source) :
    readFile file world = (.ok source, world) := by
  simp [readFile, orFail, hsource, Except.mapError]

/-- Checking a file complains of it if it is refused. -/
theorem checkFile_apply (hlimit : settings.limit = .ok limit)
    (hsource : world.tree.readText file = .ok source) :
    checkFile settings file world = (.ok (settings.complaint? world.tree file).isSome,
      world.saying [] (settings.complaint? world.tree file).toList) := by
  rcases settings.readModule_cases hlimit file.toString source with
    ⟨refusal, hread, -⟩ | ⟨m, hread, -⟩
  · have hcomplaint : settings.complaint? world.tree file =
        some (report settings file.toString source refusal) := by
      simp only [Settings.complaint?, hsource, hread]
    rw [hcomplaint]
    simp only [checkFile, Step.bind_apply, readFile_apply hsource, orFail, Step.ofExcept_apply,
      hread, Except.mapError, complain, Step.update_apply, Step.pure_apply, World.saying]
    simp
  · have hcomplaint : settings.complaint? world.tree file = none := by
      simp only [Settings.complaint?, hsource, hread]
    rw [hcomplaint]
    simp [checkFile, readFile_apply hsource, orFail, hread, Except.mapError]

/-- What is said of a file that is not in canonical form. -/
def formatLine (onlyCheck : Bool) (file : Path) : String :=
  (if onlyCheck then "would reformat " else "formatted ") ++ file.toString ++ "\n"

theorem formatFile_apply (onlyCheck : Bool) (hsource : world.tree.readText file = .ok source) :
    formatFile settings onlyCheck file world =
      match Formatting.ofSource settings file.toString source with
      | .ok (.refused refusal) =>
        (.ok true, world.saying [] [report settings file.toString source refusal])
      | .ok .canonical => (.ok false, world)
      | .ok (.changed text) =>
        if onlyCheck then (.ok true, world.saying [formatLine true file] [])
        else (.ok false, World.saying { world with tree := world.tree.writeText file text }
          [formatLine false file] [])
      | .error error => (.error (.failed (.settings error)), world) := by
  simp only [formatFile, Step.bind_apply, readFile_apply hsource, orFail, Step.ofExcept_apply]
  cases Formatting.ofSource settings file.toString source with
  | error error => rfl
  | ok formatting =>
    cases formatting with
    | refused refusal => simp [Except.mapError, complain, World.saying]
    | canonical => rfl
    | changed text =>
      cases onlyCheck
      · simp [Except.mapError, say, writeFile, World.saying, formatLine]
      · simp [Except.mapError, say, World.saying, formatLine]

/-- Formatting a file that is not to be rewritten complains of it if it is refused. -/
theorem formatFile_of_none (onlyCheck : Bool) (hlimit : settings.limit = .ok limit)
    (hsource : world.tree.readText file = .ok source)
    (h : settings.rewritten? world.tree file = none) :
    formatFile settings onlyCheck file world = (.ok (settings.complaint? world.tree file).isSome,
      world.saying [] (settings.complaint? world.tree file).toList) := by
  rw [formatFile_apply onlyCheck hsource]
  rcases settings.readModule_cases hlimit file.toString source with
    ⟨refusal, hread, -⟩ | ⟨m, hread, hform⟩
  · simp [Formatting.ofSource, Settings.complaint?, hsource, hread, Except.map, Formatting.ofModule]
  · have hsame : m.canonicalText TypeModule.standardIndent = source := by
      simpa [Settings.rewritten?, hsource, hform] using h
    simp [Formatting.ofSource, Settings.complaint?, hsource, hread, Except.map, Formatting.ofModule,
      hsame]

/-- A file that is to be rewritten is not complained of. Checking its format says so, and formatting
it writes the text. -/
theorem formatFile_of_some {text : String} (hlimit : settings.limit = .ok limit)
    (hsource : world.tree.readText file = .ok source)
    (h : settings.rewritten? world.tree file = some text) :
    settings.complaint? world.tree file = none ∧
      formatFile settings true file world = (.ok true, world.saying [formatLine true file] []) ∧
      formatFile settings false file world =
        (.ok false, World.saying { world with tree := world.tree.writeText file text }
          [formatLine false file] []) := by
  rw [formatFile_apply true hsource, formatFile_apply false hsource]
  rcases settings.readModule_cases hlimit file.toString source with
    ⟨refusal, -, hform⟩ | ⟨m, hread, hform⟩
  · simp [Settings.rewritten?, hsource, hform] at h
  · obtain ⟨hsame, rfl⟩ : m.canonicalText TypeModule.standardIndent ≠ source ∧
        m.canonicalText TypeModule.standardIndent = text := by
      simp only [Settings.rewritten?, hsource, hform] at h
      obtain ⟨htext, hsame⟩ := Option.filter_eq_some_iff.mp h
      exact ⟨Option.some.inj htext ▸ of_decide_eq_true hsame, Option.some.inj htext⟩
    simp [Formatting.ofSource, Settings.complaint?, hsource, hread, Except.map, Formatting.ofModule,
      hsame]

end CommandLine.Program

end Steps

/-! ### Runs that write no file -/

theorem toList_append_filterMap {α β : Type} (f : α → Option β) (value : α) (values : List α) :
    (f value).toList ++ values.filterMap f = (value :: values).filterMap f := by
  rw [List.filterMap_cons]
  cases f value <;> rfl

theorem isSome_or_filterMap {α β : Type} (f : α → Option β) (value : α) (values : List α) :
    ((f value).isSome || !(values.filterMap f).isEmpty) =
      !((value :: values).filterMap f).isEmpty := by
  rw [List.filterMap_cons]
  cases f value <;> rfl

/-- Assumes: a program that, as long as the tree is the same, answers for each file by the file
alone, says at most a line and complains at most once, and this by the file alone too. For all files
it does so in their order. -/
theorem CommandLine.Program.anyOf_of_forall (program : Path → Program Bool)
    (isFault : Path → Bool) (said complained : Path → Option String) {tree : FileTree}
    {files : List Path}
    (hstep : ∀ file ∈ files, ∀ world : World, world.tree = tree → program file world =
      (.ok (isFault file), world.saying (said file).toList (complained file).toList))
    {world : World} (htree : world.tree = tree) :
    anyOf program files world =
      (.ok (files.any isFault),
        world.saying (files.filterMap said) (files.filterMap complained)) := by
  induction files generalizing world with
  | nil => simp [anyOf]
  | cons file files ih =>
    obtain ⟨hfile, hfiles⟩ := List.forall_mem_cons.mp hstep
    have hothers := @ih hfiles (world.saying (said file).toList (complained file).toList) htree
    simp only [anyOf, Step.bind_apply, hfile world htree, hothers, Step.pure_apply, List.any_cons,
      World.saying_saying, toList_append_filterMap]

/-! ### Trees whose files have been formatted -/

namespace FileTree

variable {tree : FileTree} {file : Path} {source : String}

/-- The bytes of a file are those at its location. -/
theorem read_eq_ok_iff {bytes : ByteArray} : tree.read file = .ok bytes ↔
    ∃ location, tree.find? file = some location ∧ tree.bytesAt location = .ok bytes := by
  unfold read
  cases tree.find? file <;> simp

/-- The text of a file is told by its bytes. -/
theorem readText_eq_ok_iff : tree.readText file = .ok source ↔
    ∃ location bytes, tree.find? file = some location ∧ tree.bytesAt location = .ok bytes ∧
      decoded bytes = .ok source := by
  have hread : tree.readText file = .ok source ↔
      ∃ bytes, tree.read file = .ok bytes ∧ decoded bytes = .ok source := by
    unfold readText
    cases tree.read file <;> simp [bind, Except.bind]
  rw [hread]
  simp only [read_eq_ok_iff]
  constructor
  · rintro ⟨bytes, ⟨location, hlocation, hbytes⟩, hdecoded⟩
    exact ⟨location, bytes, hlocation, hbytes, hdecoded⟩
  · rintro ⟨location, bytes, hlocation, hbytes, hdecoded⟩
    exact ⟨bytes, ⟨location, hlocation, hbytes⟩, hdecoded⟩

end FileTree

namespace Settings

/-- Some files of a tree have been formatted, and nothing else has changed. -/
structure Formats (settings : Settings) (before after : FileTree) (files : List Path) : Prop where
  /-- There are the same files and directories. -/
  shape : after.SameShape before
  /-- Everything else is as it was. -/
  kept : ∀ location, (∀ file ∈ files, before.find? file ≠ some location) →
    after.node? location = before.node? location
  /-- The files hold what formatting makes of their bytes. -/
  formatted : ∀ file ∈ files, ∀ location, before.find? file = some location →
    ∀ bytes, before.bytesAt location = .ok bytes →
      after.bytesAt location = .ok (settings.formatted bytes)

section

variable {settings : Settings} {limit : Option NestingLimit} {before middle after : FileTree}
  {files : List Path} {file : Path} {source : String}

theorem Formats.refl (tree : FileTree) : settings.Formats tree tree [] :=
  ⟨.refl tree, fun _ _ ↦ rfl, fun _ hfile ↦ absurd hfile List.not_mem_nil⟩

theorem bytesAt_of_node? {first second : FileTree} {location : Location}
    (h : first.node? location = second.node? location) :
    first.bytesAt location = second.bytesAt location := by
  rw [FileTree.bytesAt, h, FileTree.bytesAt]

/-- Assumes: a file has been formatted, and then others. A file among both is formatted no
further. -/
theorem Formats.cons (hlimit : settings.limit = .ok limit)
    (hfirst : settings.Formats before middle [file])
    (hothers : settings.Formats middle after files) :
    settings.Formats before after (file :: files) := by
  have hfind (path : Path) : middle.find? path = before.find? path := hfirst.shape.find? path
  refine ⟨hothers.shape.trans hfirst.shape, fun location hnot ↦ ?_, ?_⟩
  · obtain ⟨hfile, hfiles⟩ := List.forall_mem_cons.mp hnot
    rw [hothers.kept location fun other hother ↦ hfind other ▸ hfiles other hother,
      hfirst.kept location (List.forall_mem_singleton.mpr hfile)]
  · intro visited hvisited location hlocation bytes hbytes
    by_cases hfile : before.find? file = some location
    · have hmiddle := hfirst.formatted file List.mem_cons_self location hfile bytes hbytes
      by_cases hfiles : ∃ other ∈ files, before.find? other = some location
      · obtain ⟨other, hother, hsame⟩ := hfiles
        rw [← formatted_formatted hlimit bytes]
        exact hothers.formatted other hother location (hfind other ▸ hsame) _ hmiddle
      · have hkept := hothers.kept location fun other hother hsame ↦
          hfiles ⟨other, hother, hfind other ▸ hsame⟩
        rw [bytesAt_of_node? hkept, hmiddle]
    · have hmiddle : middle.bytesAt location = .ok bytes := by
        rw [bytesAt_of_node? (hfirst.kept location (List.forall_mem_singleton.mpr hfile)), hbytes]
      rcases List.mem_cons.mp hvisited with rfl | hother
      · exact absurd hlocation hfile
      · exact hothers.formatted visited hother location (hfind visited ▸ hlocation) bytes hmiddle

/-- A file that is not to be rewritten is left as it is. -/
theorem formats_of_none (hsource : before.readText file = .ok source)
    (h : settings.rewritten? before file = none) : settings.Formats before before [file] := by
  refine ⟨.refl before, fun _ _ ↦ rfl, List.forall_mem_singleton.mpr ?_⟩
  intro location hlocation bytes hbytes
  obtain ⟨place, content, hplace, hcontent, hdecoded⟩ := FileTree.readText_eq_ok_iff.mp hsource
  rw [hlocation, Option.some.injEq] at hplace
  rw [← hplace, hbytes, Except.ok.injEq] at hcontent
  rw [← hcontent] at hdecoded
  rw [hbytes]
  simp only [rewritten?, hsource] at h
  cases hform : settings.canonicalForm? source with
  | none => rw [formatted_of_none hdecoded hform]
  | some text =>
    have hsame : text = source := by simpa [hform] using h
    simp only [formatted, hdecoded, hform, if_pos hsame]

/-- A file that is rewritten holds what formatting makes of its bytes. -/
theorem formats_of_some {text : String} (hsource : before.readText file = .ok source)
    (h : settings.rewritten? before file = some text) :
    settings.Formats before (before.writeText file text) [file] := by
  obtain ⟨location, bytes, hlocation, hbytes, hdecoded⟩ := FileTree.readText_eq_ok_iff.mp hsource
  have hfile := FileTree.isFile_of_bytesAt hbytes
  have hwritten : before.writeText file text = before.write location text.toUTF8 := by
    rw [FileTree.writeText, hlocation]
  rw [hwritten]
  refine ⟨FileTree.sameShape_write hfile, fun place hplace ↦ ?_, List.forall_mem_singleton.mpr ?_⟩
  · refine FileTree.node?_write_of_ne fun hsame ↦ ?_
    exact hplace file List.mem_cons_self (by rw [hsame, hlocation])
  · intro place hplace content hcontent
    rw [hlocation, Option.some.injEq] at hplace
    rw [← hplace, hbytes, Except.ok.injEq] at hcontent
    have hform : settings.formatted content = text.toUTF8 := by
      rw [← hcontent, formatted, hdecoded]
      simp only [rewritten?, hsource] at h
      obtain ⟨htext, hsame⟩ := Option.filter_eq_some_iff.mp h
      simp only [htext, if_neg (of_decide_eq_true hsame)]
    rw [← hplace, hform, FileTree.bytesAt, FileTree.node?_write_self hfile]

/-! ### Reading what has been formatted -/

/-- A file that has been formatted is read as the canonical form of its source, or as the source if
there is none. -/
theorem Formats.readText_of_visited (hlimit : settings.limit = .ok limit)
    (h : settings.Formats before after files) (hsource : before.readText file = .ok source)
    (hvisited : ∃ other ∈ files, before.find? other = before.find? file) :
    after.readText file = .ok ((settings.canonicalForm? source).getD source) := by
  obtain ⟨location, bytes, hlocation, hbytes, hdecoded⟩ := FileTree.readText_eq_ok_iff.mp hsource
  obtain ⟨other, hother, hsame⟩ := hvisited
  have hformatted := h.formatted other hother location (hsame.trans hlocation) bytes hbytes
  refine FileTree.readText_eq_ok_iff.mpr
    ⟨location, _, (h.shape.find? file).trans hlocation, hformatted, ?_⟩
  cases hform : settings.canonicalForm? source with
  | none => rw [formatted_of_none hdecoded hform, hdecoded, Option.getD_none]
  | some text => rw [decoded_formatted hlimit hdecoded hform, Option.getD_some]

/-- A file that has not been formatted is read as before. -/
theorem Formats.readText_of_not_visited (h : settings.Formats before after files)
    (hsource : before.readText file = .ok source)
    (hvisited : ¬ ∃ other ∈ files, before.find? other = before.find? file) :
    after.readText file = .ok source := by
  obtain ⟨location, bytes, hlocation, hbytes, hdecoded⟩ := FileTree.readText_eq_ok_iff.mp hsource
  refine FileTree.readText_eq_ok_iff.mpr
    ⟨location, bytes, (h.shape.find? file).trans hlocation, ?_, hdecoded⟩
  have hkept := h.kept location fun other hother hsame ↦
    hvisited ⟨other, hother, hsame.trans hlocation.symm⟩
  rw [bytesAt_of_node? hkept, hbytes]

/-- A file that has been formatted holds what formatting makes of its bytes. -/
theorem Formats.read_of_mem {bytes : ByteArray} (h : settings.Formats before after files)
    (hfile : file ∈ files) (hbytes : before.read file = .ok bytes) :
    after.read file = .ok (settings.formatted bytes) := by
  obtain ⟨location, hlocation, hcontent⟩ := FileTree.read_eq_ok_iff.mp hbytes
  exact FileTree.read_eq_ok_iff.mpr ⟨location, (h.shape.find? file).trans hlocation,
    h.formatted file hfile location hlocation bytes hcontent⟩

/-- Files can be read as long as they could be before. -/
theorem Formats.exists_readText (hlimit : settings.limit = .ok limit)
    (h : settings.Formats before after files)
    (hreadable : ∃ source, before.readText file = .ok source) :
    ∃ source, after.readText file = .ok source := by
  obtain ⟨source, hsource⟩ := hreadable
  by_cases hvisited : ∃ other ∈ files, before.find? other = before.find? file
  · exact ⟨_, h.readText_of_visited hlimit hsource hvisited⟩
  · exact ⟨source, h.readText_of_not_visited hsource hvisited⟩

theorem complaint?_of_canonicalForm? {text : String} (hlimit : settings.limit = .ok limit)
    (hsource : before.readText file = .ok source)
    (h : settings.canonicalForm? source = some text) : settings.complaint? before file = none := by
  rcases settings.readModule_cases hlimit file.toString source with
    ⟨refusal, -, hnone⟩ | ⟨m, hread, -⟩
  · rw [h] at hnone
    cases hnone
  · simp only [complaint?, hsource, hread]

/-- The same is complained of a file, whether files have been formatted or not. -/
theorem Formats.complaint? (hlimit : settings.limit = .ok limit)
    (h : settings.Formats before after files) (hsource : before.readText file = .ok source) :
    settings.complaint? after file = settings.complaint? before file := by
  have hsame (hagain : after.readText file = .ok source) :
      settings.complaint? after file = settings.complaint? before file := by
    simp only [Settings.complaint?, hsource, hagain]
  by_cases hvisited : ∃ other ∈ files, before.find? other = before.find? file
  · have hagain := h.readText_of_visited hlimit hsource hvisited
    cases hform : settings.canonicalForm? source with
    | none => exact hsame (by rw [hagain, hform, Option.getD_none])
    | some text =>
      rw [hform, Option.getD_some] at hagain
      rw [complaint?_of_canonicalForm? hlimit hsource hform, complaint?_of_canonicalForm? hlimit
        hagain (canonicalForm?_of_canonicalForm? hlimit hform)]
  · exact hsame (h.readText_of_not_visited hsource hvisited)

/-- A file that has been formatted is not to be rewritten. -/
theorem Formats.rewritten?_of_visited (hlimit : settings.limit = .ok limit)
    (h : settings.Formats before after files) (hsource : before.readText file = .ok source)
    (hvisited : ∃ other ∈ files, before.find? other = before.find? file) :
    settings.rewritten? after file = none := by
  have hagain := h.readText_of_visited hlimit hsource hvisited
  cases hform : settings.canonicalForm? source with
  | none =>
    rw [hform, Option.getD_none] at hagain
    simp [rewritten?, hagain, hform]
  | some text =>
    rw [hform, Option.getD_some] at hagain
    simp [rewritten?, hagain, canonicalForm?_of_canonicalForm? hlimit hform]

/-- A file that has not been formatted is to be rewritten if it was before. -/
theorem Formats.rewritten?_of_not_visited (h : settings.Formats before after files)
    (hsource : before.readText file = .ok source)
    (hvisited : ¬ ∃ other ∈ files, before.find? other = before.find? file) :
    settings.rewritten? after file = settings.rewritten? before file := by
  simp only [rewritten?, hsource, h.readText_of_not_visited hsource hvisited]

/-- Assumes: one file has been formatted, and others are found elsewhere. Those of them are to be
rewritten that were before. -/
theorem Formats.filter_rewritten? (h : settings.Formats before after [file])
    (hreadable : ∀ other ∈ files, ∃ source, before.readText other = .ok source)
    (helsewhere : before.find? file ∉ files.map before.find?) :
    (files.filter fun other ↦ (settings.rewritten? after other).isSome) =
      files.filter fun other ↦ (settings.rewritten? before other).isSome := by
  refine List.filter_congr fun other hother ↦ ?_
  obtain ⟨source, hsource⟩ := hreadable other hother
  rw [h.rewritten?_of_not_visited hsource]
  rintro ⟨visited, hvisited, hlocation⟩
  rw [List.mem_singleton.mp hvisited] at hlocation
  exact helsewhere (List.mem_map.mpr ⟨other, hother, hlocation.symm⟩)

/-- A file that holds a module and has been formatted is read as the canonical text. -/
theorem Formats.readText_of_readModule {name : String} {m : TypeModule}
    (hlimit : settings.limit = .ok limit) (h : settings.Formats before after files)
    (hfile : file ∈ files) (hsource : before.readText file = .ok source)
    (hread : settings.readModule name source = .ok (.ok m)) :
    after.readText file = .ok (m.canonicalText TypeModule.standardIndent) := by
  rw [h.readText_of_visited hlimit hsource ⟨file, hfile, rfl⟩,
    canonicalForm?_of_module hlimit hread, Option.getD_some]

/-- A file that is refused and has been formatted is as it was. -/
theorem Formats.read_of_refused {name : String} {refusal : Refusal}
    (hlimit : settings.limit = .ok limit) (h : settings.Formats before after files)
    (hfile : file ∈ files) (hsource : before.readText file = .ok source)
    (hread : settings.readModule name source = .ok (.error refusal)) :
    after.read file = before.read file := by
  have hform := canonicalForm?_of_refused hlimit hread
  obtain ⟨location, bytes, hlocation, hbytes, hdecoded⟩ := FileTree.readText_eq_ok_iff.mp hsource
  have hcontent := FileTree.read_eq_ok_iff.mpr ⟨location, hlocation, hbytes⟩
  rw [h.read_of_mem hfile hcontent, formatted_of_none hdecoded hform, hcontent]

end

end Settings

/-! ### Runs that write files -/

namespace CommandLine.Program

variable {settings : Settings} {limit : Option NestingLimit} {files : List Path} {file : Path}
  {world : World}

/-- Formatting a file leaves the tree with that file formatted. -/
theorem exists_formatFile (hlimit : settings.limit = .ok limit)
    (hreadable : ∃ source, world.tree.readText file = .ok source) :
    ∃ after, formatFile settings false file world =
        (.ok (settings.complaint? world.tree file).isSome,
          World.saying { world with tree := after }
            ((settings.rewritten? world.tree file).toList.map fun _ ↦ formatLine false file)
            (settings.complaint? world.tree file).toList) ∧
      settings.Formats world.tree after [file] := by
  obtain ⟨source, hsource⟩ := hreadable
  cases hrewritten : settings.rewritten? world.tree file with
  | none =>
    exact ⟨world.tree, formatFile_of_none false hlimit hsource hrewritten,
      Settings.formats_of_none hsource hrewritten⟩
  | some text =>
    obtain ⟨hcomplaint, -, hformat⟩ := formatFile_of_some hlimit hsource hrewritten
    rw [hcomplaint]
    exact ⟨_, hformat, Settings.formats_of_some hsource hrewritten⟩

/-- Assumes: files that can be read. Formatting them one after the other leaves the tree with all of
them formatted, complains of those that are refused and, if each is a file of its own, says which
ones it rewrites. -/
theorem anyOf_formatFile (hlimit : settings.limit = .ok limit)
    (hreadable : ∀ file ∈ files, ∃ source, world.tree.readText file = .ok source) :
    ∃ after lines, anyOf (formatFile settings false) files world =
        (.ok (!(files.filterMap (settings.complaint? world.tree)).isEmpty),
          World.saying { world with tree := after } lines
            (files.filterMap (settings.complaint? world.tree))) ∧
      settings.Formats world.tree after files ∧
      ((files.map world.tree.find?).Nodup →
        lines = (files.filter fun file ↦ (settings.rewritten? world.tree file).isSome).map
          (formatLine false)) := by
  induction files generalizing world with
  | nil => exact ⟨world.tree, [], by simp [anyOf], .refl world.tree, fun _ ↦ rfl⟩
  | cons file files ih =>
    obtain ⟨hfile, hfiles⟩ := List.forall_mem_cons.mp hreadable
    obtain ⟨middle, hstep, hfirst⟩ := exists_formatFile hlimit hfile
    obtain ⟨there, hthere⟩ : ∃ there, there = World.saying { world with tree := middle }
      ((settings.rewritten? world.tree file).toList.map fun _ ↦ formatLine false file)
      (settings.complaint? world.tree file).toList := ⟨_, rfl⟩
    have htree : there.tree = middle := by rw [hthere, World.saying_tree]
    rw [← hthere] at hstep
    rw [← htree] at hfirst
    obtain ⟨after, lines, hrun, hothers, hlines⟩ := @ih there fun other hother ↦
      hfirst.exists_readText hlimit (hfiles other hother)
    refine ⟨after,
      ((settings.rewritten? world.tree file).toList.map fun _ ↦ formatLine false file) ++ lines,
      ?_, hfirst.cons hlimit hothers, fun hdistinct ↦ ?_⟩
    · have hcomplaints : files.filterMap (settings.complaint? there.tree) =
          files.filterMap (settings.complaint? world.tree) :=
        List.filterMap_congr fun other hother ↦ by
          obtain ⟨source, hsource⟩ := hfiles other hother
          exact hfirst.complaint? hlimit hsource
      simp only [anyOf, Step.bind_apply, hstep, hrun, Step.pure_apply, hcomplaints,
        isSome_or_filterMap, ← toList_append_filterMap, ← World.saying_saying]
      rw [hthere]
      rfl
    · obtain ⟨helsewhere, hbehind⟩ := List.nodup_cons.mp hdistinct
      have hfind : files.map there.tree.find? = files.map world.tree.find? :=
        List.map_congr_left fun other _ ↦ hfirst.shape.find? other
      rw [hlines (hfind ▸ hbehind), hfirst.filter_rewritten? hfiles helsewhere, List.filter_cons]
      cases settings.rewritten? world.tree file <;> rfl

/-! ### All files -/

theorem any_isSome {α β : Type} (f : α → Option β) (values : List α) :
    values.any (fun value ↦ (f value).isSome) = !(values.filterMap f).isEmpty := by
  induction values with
  | nil => rfl
  | cons value values ih => rw [List.any_cons, ih, isSome_or_filterMap]

theorem filterMap_map_isSome {α β γ : Type} (f : α → Option β) (g : α → γ) (values : List α) :
    values.filterMap (fun value ↦ (f value).map fun _ ↦ g value) =
      (values.filter fun value ↦ (f value).isSome).map g := by
  induction values with
  | nil => rfl
  | cons value values ih =>
    rw [List.filterMap_cons, List.filter_cons, ih]
    cases f value <;> rfl

/-- Assumes: files that can be read. Checking them complains of those that are refused. -/
theorem anyOf_checkFile (hlimit : settings.limit = .ok limit)
    (hreadable : ∀ file ∈ files, ∃ source, world.tree.readText file = .ok source) :
    anyOf (checkFile settings) files world =
      (.ok (!(files.filterMap (settings.complaint? world.tree)).isEmpty),
        world.saying [] (files.filterMap (settings.complaint? world.tree))) := by
  have hstep (file : Path) (hfile : file ∈ files) (there : World)
      (htree : there.tree = world.tree) : checkFile settings file there =
        (.ok (settings.complaint? world.tree file).isSome,
          there.saying [] (settings.complaint? world.tree file).toList) := by
    obtain ⟨source, hsource⟩ := hreadable file hfile
    rw [← htree] at hsource ⊢
    exact checkFile_apply hlimit hsource
  rw [anyOf_of_forall (checkFile settings) _ (fun _ ↦ none) _ hstep rfl, any_isSome,
    List.filterMap_none]

/-- Assumes: files that can be read and are not to be rewritten. Formatting them, or only checking
their format, complains of those that are refused. -/
theorem anyOf_formatFile_of_none (onlyCheck : Bool) (hlimit : settings.limit = .ok limit)
    (hreadable : ∀ file ∈ files, ∃ source, world.tree.readText file = .ok source)
    (hnone : ∀ file ∈ files, settings.rewritten? world.tree file = none) :
    anyOf (formatFile settings onlyCheck) files world =
      (.ok (!(files.filterMap (settings.complaint? world.tree)).isEmpty),
        world.saying [] (files.filterMap (settings.complaint? world.tree))) := by
  have hstep (file : Path) (hfile : file ∈ files) (there : World)
      (htree : there.tree = world.tree) : formatFile settings onlyCheck file there =
        (.ok (settings.complaint? world.tree file).isSome,
          there.saying [] (settings.complaint? world.tree file).toList) := by
    obtain ⟨source, hsource⟩ := hreadable file hfile
    have hrewritten := hnone file hfile
    rw [← htree] at hsource hrewritten ⊢
    exact formatFile_of_none onlyCheck hlimit hsource hrewritten
  rw [anyOf_of_forall (formatFile settings onlyCheck) _ (fun _ ↦ none) _ hstep rfl, any_isSome,
    List.filterMap_none]

/-- Assumes: files that can be read. Checking their format complains of those that are refused, and
says which ones would be rewritten. -/
theorem anyOf_formatFile_true (hlimit : settings.limit = .ok limit)
    (hreadable : ∀ file ∈ files, ∃ source, world.tree.readText file = .ok source) :
    anyOf (formatFile settings true) files world =
      (.ok (files.any fun file ↦ (settings.complaint? world.tree file).isSome ||
          (settings.rewritten? world.tree file).isSome),
        world.saying ((files.filter fun file ↦ (settings.rewritten? world.tree file).isSome).map
          (formatLine true)) (files.filterMap (settings.complaint? world.tree))) := by
  have hstep (file : Path) (hfile : file ∈ files) (there : World)
      (htree : there.tree = world.tree) : formatFile settings true file there =
        (.ok ((settings.complaint? world.tree file).isSome ||
            (settings.rewritten? world.tree file).isSome),
          there.saying
            ((settings.rewritten? world.tree file).map fun _ ↦ formatLine true file).toList
            (settings.complaint? world.tree file).toList) := by
    obtain ⟨source, hsource⟩ := hreadable file hfile
    rw [← htree] at hsource ⊢
    cases hrewritten : settings.rewritten? there.tree file with
    | none =>
      rw [formatFile_of_none true hlimit hsource hrewritten]
      simp
    | some text =>
      obtain ⟨hcomplaint, hcheck, -⟩ := formatFile_of_some hlimit hsource hrewritten
      rw [hcheck, hcomplaint]
      rfl
  rw [anyOf_of_forall (formatFile settings true) _ _ _ hstep rfl, filterMap_map_isSome]

end CommandLine.Program

end WatTypes
