import WatTypes.Proofs.CanonicalForm
import WatTypes.Proofs.Outlining.Parts
import WatTypes.Proofs.Rendering.ControlSequences

/-!
# Printed outlines tell the module

The outline of a module is printed line by line. None of its lines holds a control character
(`areClear_ofModule`), so that nothing is taken from them where streams show no colours, and the
lines can be told again from what is printed (`printed_inj`). Hence sources have the same outline
printed exactly if they hold the same module up to spans, which is the case exactly if their
canonical texts are the same (`run_view_eq_iff`).
-/

set_option autoImplicit false
set_option relaxedAutoImplicit false

namespace WatTypes

open Grammar

/-! ### Lines without control characters -/

namespace Outline

/-- Lines without control characters. -/
def AreClear (lines : List String) : Prop := ∀ line ∈ lines, Text.IsClear line.toList

theorem isClear_append {text more : String} (htext : Text.IsClear text.toList)
    (hmore : Text.IsClear more.toList) : Text.IsClear (text ++ more).toList := by
  rw [String.toList_append]
  exact htext.append hmore

theorem AreClear.indented {lines : List String} (h : AreClear lines) :
    AreClear (indented lines) := by
  intro line hline
  obtain ⟨inner, hinner, rfl⟩ := List.mem_map.mp hline
  exact isClear_append (by decide) (h inner hinner)

theorem areClear_leaf {name value : String} (hname : Text.IsClear name.toList)
    (hvalue : Text.IsClear value.toList) : AreClear (leaf name value) := by
  intro line hline
  rw [List.mem_singleton.mp hline]
  exact isClear_append (isClear_append hname (by decide)) hvalue

theorem AreClear.inner {name : String} {lines : List String} (h : AreClear lines)
    (hname : Text.IsClear name.toList) : AreClear (inner name lines) := by
  intro line hline
  rcases List.mem_cons.mp hline with rfl | hbelow
  · exact isClear_append hname (by decide)
  · exact h.indented line hbelow

theorem areClear_part {kind : String} {entries : List (List String)}
    (hkind : Text.IsClear kind.toList) (hentries : ∀ entry ∈ entries, AreClear entry) :
    AreClear (part kind entries) := by
  intro line hline
  rcases List.mem_cons.mp hline with rfl | hbelow
  · exact hkind
  · refine AreClear.indented (fun other hother ↦ ?_) line hbelow
    obtain ⟨entry, hentry, hmem⟩ := List.mem_flatten.mp hother
    exact hentries entry hentry other hmem

section

variable {α : Type}

theorem areClear_optional {entry : α → List String} (h : ∀ value, AreClear (entry value))
    (value : Option α) : AreClear (optional entry value) := by
  cases value with
  | none => exact fun line hline ↦ absurd hline List.not_mem_nil
  | some present => exact h present

theorem areClear_many {name : String} {lines : α → List String}
    (h : ∀ value, AreClear (lines value))
    (hname : Text.IsClear name.toList) (values : List α) : AreClear (many name lines values) := by
  unfold many
  split
  · exact areClear_leaf hname (by decide)
  · refine AreClear.inner (fun line hline ↦ ?_) hname
    obtain ⟨value, -, hmem⟩ := List.mem_flatMap.mp hline
    exact h value line hmem

end

/-! ### Parts -/

theorem isClear_toString (value : Int) : Text.IsClear (toString value).toList := by
  intro c hc
  rcases isDigit_of_mem_toString hc with rfl | hdigit
  · decide
  · have hrange : 48 ≤ c.toNat ∧ c.toNat ≤ 57 := by
      simpa [Char.isDigit, UInt32.le_iff_toNat_le] using hdigit
    omega

theorem isClear_truth (holds : Bool) : Text.IsClear (truth holds).toList := by
  cases holds <;> decide

theorem isClear_keyword_valType (ty : ValType) : Text.IsClear ty.keyword.toList := by
  cases ty <;> decide

theorem isClear_keyword_elemType (ty : ElemType) : Text.IsClear ty.keyword.toList := by
  cases ty <;> decide

theorem areClear_ofId (id : Id) : AreClear (ofId id) :=
  areClear_part (by decide) (by simpa using areClear_leaf (by decide) (Text.isClear_quoted _))

theorem areClear_ofDisplayName (name : DisplayName) : AreClear (ofDisplayName name) :=
  areClear_part (by decide) (by simpa using areClear_leaf (by decide) (Text.isClear_quoted _))

theorem areClear_ofIndex (index : Index) : AreClear (ofIndex index) := by
  refine areClear_part (by decide) ?_
  rw [List.forall_mem_singleton]
  refine areClear_leaf (by decide) ?_
  cases index.reference with
  | number value => exact isClear_toString value
  | symbol name => exact Text.isClear_quoted name

theorem areClear_ofLimits (limits : Limits) : AreClear (ofLimits limits) := by
  refine areClear_part (by decide) ?_
  simp only [List.forall_mem_cons]
  exact ⟨areClear_leaf (by decide) (isClear_toString _),
    areClear_optional (fun most ↦ areClear_leaf (by decide) (isClear_toString most)) _, by simp⟩

theorem areClear_ofGlobalType (ty : GlobalType) : AreClear (ofGlobalType ty) := by
  refine areClear_part (by decide) ?_
  simp only [List.forall_mem_cons]
  exact ⟨areClear_leaf (by decide) (isClear_keyword_valType _),
    areClear_leaf (by decide) (isClear_truth _), by simp⟩

theorem areClear_ofTableType (ty : TableType) : AreClear (ofTableType ty) := by
  refine areClear_part (by decide) ?_
  simp only [List.forall_mem_cons]
  exact ⟨(areClear_ofLimits _).inner (by decide),
    areClear_leaf (by decide) (isClear_keyword_elemType _), by simp⟩

theorem areClear_ofMemoryType (ty : MemoryType) : AreClear (ofMemoryType ty) := by
  refine areClear_part (by decide) ?_
  simp only [List.forall_mem_cons]
  exact ⟨(areClear_ofLimits _).inner (by decide),
    areClear_leaf (by decide) (isClear_truth _), by simp⟩

theorem areClear_ofParam (param : Param) : AreClear (ofParam param) := by
  refine areClear_part (by decide) ?_
  simp only [List.forall_mem_cons]
  exact ⟨areClear_leaf (by decide) (isClear_keyword_valType _),
    areClear_optional (fun id ↦ (areClear_ofId id).inner (by decide)) _,
    areClear_optional (fun name ↦ (areClear_ofDisplayName name).inner (by decide)) _, by simp⟩

theorem areClear_ofFunctionType (ty : FunctionType) : AreClear (ofFunctionType ty) := by
  have hresult (result : ValType) : AreClear [result.keyword] := fun line hline ↦ by
    rw [List.mem_singleton.mp hline]
    exact isClear_keyword_valType result
  refine areClear_part (by decide) ?_
  simp only [List.forall_mem_cons]
  exact ⟨areClear_many areClear_ofParam (by decide) _, areClear_many hresult (by decide) _, by simp⟩

theorem areClear_ofTypeUse (use : TypeUse) : AreClear (ofTypeUse use) := by
  refine areClear_part (by decide) ?_
  simp only [List.forall_mem_cons]
  exact ⟨areClear_optional (fun index ↦ (areClear_ofIndex index).inner (by decide)) _,
    (areClear_ofFunctionType _).inner (by decide), by simp⟩

theorem areClear_ofDeclaration (declaration : Declaration) :
    AreClear (ofDeclaration declaration) := by
  cases declaration with
  | type signature => exact (areClear_ofFunctionType signature).inner (by decide)
  | global ty => exact (areClear_ofGlobalType ty).inner (by decide)
  | table ty => exact (areClear_ofTableType ty).inner (by decide)
  | memory ty => exact (areClear_ofMemoryType ty).inner (by decide)
  | func use => exact (areClear_ofTypeUse use).inner (by decide)

theorem areClear_ofField (field : Field) : AreClear (ofField field) := by
  refine areClear_part ?_ ?_
  · cases field.declaration <;> simp [kindOf, Text.IsClear]
  · simp only [List.forall_mem_cons]
    exact ⟨areClear_optional (fun id ↦ (areClear_ofId id).inner (by decide)) _,
      areClear_ofDeclaration _, by simp⟩

/-- No line of an outline holds a control character. -/
theorem areClear_ofModule (m : TypeModule) : AreClear (ofModule m) := by
  refine areClear_part (by decide) ?_
  simp only [List.forall_mem_cons]
  exact ⟨areClear_optional (fun id ↦ (areClear_ofId id).inner (by decide)) _,
    areClear_many areClear_ofField (by decide) _, by simp⟩

/-! ### Printing -/

/-- The outline of a module as it is printed. -/
def printed (m : TypeModule) : String := String.join ((ofModule m).map (· ++ "\n"))

theorem toList_join_lines (lines : List String) :
    (String.join (lines.map (· ++ "\n"))).toList =
      lines.flatMap fun line ↦ line.toList ++ ['\n'] := by
  rw [String.toList_join, List.flatMap_map]
  simp only [String.toList_append]
  rfl

/-- A line is told from what is behind its line feed. -/
theorem append_lineFeed_inj {line other rest more : List Char} (hline : Text.IsClear line)
    (hother : Text.IsClear other) (h : line ++ '\n' :: rest = other ++ '\n' :: more) :
    line = other ∧ rest = more := by
  have hnot {c : Char} (hc : 32 ≤ c.toNat) : c ≠ '\n' := fun heq ↦ absurd (heq ▸ hc) (by decide)
  induction line generalizing other with
  | nil =>
    cases other with
    | nil => exact ⟨rfl, (List.cons.inj h).2⟩
    | cons c other => exact absurd (List.cons.inj h).1.symm (hnot (hother c List.mem_cons_self))
  | cons c line ih =>
    obtain ⟨hc, hbehind⟩ := List.forall_mem_cons.mp hline
    cases other with
    | nil => exact absurd (List.cons.inj h).1 (hnot hc)
    | cons d other =>
      obtain ⟨hfirst, hrest⟩ := List.cons.inj h
      obtain ⟨hlines, hmore⟩ := ih hbehind (List.forall_mem_cons.mp hother).2 hrest
      exact ⟨by rw [hfirst, hlines], hmore⟩

/-- Lines without control characters are told from what is printed. -/
theorem AreClear.eq_of_flatMap {lines others : List String} (hlines : AreClear lines)
    (hothers : AreClear others)
    (h : (lines.flatMap fun line ↦ line.toList ++ ['\n']) =
      others.flatMap fun line ↦ line.toList ++ ['\n']) : lines = others := by
  induction lines generalizing others with
  | nil =>
    cases others with
    | nil => rfl
    | cons other others => simp at h
  | cons line lines ih =>
    cases others with
    | nil => simp at h
    | cons other others =>
      obtain ⟨hline, hbehind⟩ := List.forall_mem_cons.mp hlines
      obtain ⟨hother, hmore⟩ := List.forall_mem_cons.mp hothers
      simp only [List.flatMap_cons, List.append_assoc, List.singleton_append] at h
      obtain ⟨hfirst, hrest⟩ := append_lineFeed_inj hline hother h
      rw [String.toList_injective hfirst, ih hbehind hmore hrest]

/-- Modules whose outlines are printed alike are the same up to spans. -/
theorem printed_inj {m n : TypeModule} (h : printed m = printed n) :
    m.withoutSpans = n.withoutSpans := by
  have hlists := congrArg String.toList h
  rw [printed, printed, toList_join_lines, toList_join_lines] at hlists
  exact ofModule_inj ((areClear_ofModule m).eq_of_flatMap (areClear_ofModule n) hlists)

end Outline

/-- Outlines reach a stream as they are, whether it shows colours or not. -/
theorem CommandLine.Program.shown_printed (world : World) (m : TypeModule) :
    shown world (Outline.printed m) = Outline.printed m := by
  have hescape : '\x1b' ∉ (Outline.printed m).toList := by
    rw [Outline.printed, Outline.toList_join_lines]
    intro hmem
    obtain ⟨line, hline, hc⟩ := List.mem_flatMap.mp hmem
    rcases List.mem_append.mp hc with hin | hend
    · exact absurd (Outline.areClear_ofModule m line hline _ hin) (by decide)
    · exact absurd (List.mem_singleton.mp hend) (by decide)
  unfold shown
  split
  · rfl
  · rw [Text.withoutControlSequences_of_notMem hescape, String.ofList_toList]

/-! ### Canonical texts -/

/-- A module that is read can be written, whatever the settings. -/
theorem Settings.wellFormed_of_readModule {settings : Settings} {file source : String}
    {m : TypeModule} (h : settings.readModule file source = .ok (.ok m)) : m.WellFormed := by
  unfold readModule at h
  split at h
  · exact (wellFormed_of_read (Except.ok.inj h)).1
  · split at h
    · cases h
    · exact (wellFormed_of_read (Except.ok.inj h)).1

/-- Modules that can be written are told by their canonical texts, up to spans. -/
theorem TypeModule.canonicalText_inj {m n : TypeModule} (hm : m.WellFormed) (hn : n.WellFormed)
    (h : m.canonicalText standardIndent = n.canonicalText standardIndent) :
    m.withoutSpans = n.withoutSpans := by
  have hindent : ∀ c ∈ standardIndent.toList, isGapChar c = true :=
    List.all_eq_true.mp (by decide)
  obtain ⟨found, hfound, hsame⟩ := read_canonicalText hm hindent (nests_lexemes hm) ""
  obtain ⟨other, hother, hagain⟩ := read_canonicalText hn hindent (nests_lexemes hn) ""
  rw [h, hother, Except.ok.injEq] at hfound
  rw [← hsame, ← hagain, hfound]

/-! ### Views -/

namespace CommandLine

/-- The file that is asked for holds a module, as it is read under the nearest settings. -/
def World.HoldsModule (world : World) (file : String) (m : TypeModule) : Prop :=
  ∃ settings source, Settings.nearest world.tree (.ofString file) = .ok settings ∧
    world.tree.readText (.ofString file) = .ok source ∧
    settings.readModule file source = .ok (.ok m)

theorem World.HoldsModule.wellFormed {world : World} {file : String} {m : TypeModule}
    (h : world.HoldsModule file m) : m.WellFormed := by
  obtain ⟨settings, source, -, -, hread⟩ := h
  exact settings.wellFormed_of_readModule hread

/-- Assumes: settings without a limit, and blanks that are no control characters as the indent. A
file with the canonical text of a module that can be written holds the module, up to spans. -/
theorem World.exists_holdsModule {world : World} {file indent : String} {settings : Settings}
    {m : TypeModule} (hm : m.WellFormed) (hindent : ∀ c ∈ indent.toList, isGapChar c = true)
    (hclear : Text.IsClear indent.toList)
    (hsettings : Settings.nearest world.tree (.ofString file) = .ok settings)
    (hlimit : settings.limit = .ok none)
    (hfile : world.tree.read (.ofString file) = .ok (m.canonicalText indent).toUTF8) :
    ∃ found, world.HoldsModule file found ∧ found.withoutSpans = m.withoutSpans := by
  obtain ⟨found, hfound, hsame⟩ := read_canonicalText hm hindent (nests_lexemes hm) file
  have hsource : world.tree.readText (.ofString file) = .ok (m.canonicalText indent) := by
    rw [FileTree.readText, hfile]
    exact FileTree.decoded_canonicalText hm hclear
  exact ⟨found, ⟨settings, _, hsettings, hsource,
    (Settings.readModule_of_limit hlimit).trans (congrArg Except.ok hfound)⟩, hsame⟩

/-- Assumes: arguments that ask to view a file that holds a module. The outline of the module is
printed, and nothing else happens. -/
theorem run_view {world : World} {arguments : List String} {file : String} {m : TypeModule}
    (hrequest : Request.ofArguments world.tree arguments = .ok (.view file))
    (h : world.HoldsModule file m) :
    run arguments world =
      (.success, { world with output := world.output ++ Outline.printed m }) := by
  obtain ⟨settings, source, hsettings, hsource, hread⟩ := h
  have hprogram : Program.view file world =
      (.ok (), { world with output := world.output ++ Outline.printed m }) := by
    simp only [Program.view, Program.settingsFor, Program.readFile, Program.orFail, Program.say,
      Step.bind_apply, Step.state_apply, Step.ofExcept_apply, Step.update_apply, hsettings, hsource,
      hread, Except.mapError]
    rw [← Outline.printed, Program.shown_printed]
  simp only [run, hrequest, Request.program, hprogram]

/-- Assumes: arguments that ask to view files that hold modules, each in a world of its own. Both
runs succeed, and print the same if and only if the modules are the same up to spans, which is the
case if and only if their canonical texts are the same. -/
theorem run_view_eq_iff {first second : World} {arguments others : List String}
    {file other : String} {m n : TypeModule}
    (harguments : Request.ofArguments first.tree arguments = .ok (.view file))
    (hothers : Request.ofArguments second.tree others = .ok (.view other))
    (hfirst : first.HoldsModule file m) (hsecond : second.HoldsModule other n) :
    ∃ text more,
      run arguments first = (.success, { first with output := first.output ++ text }) ∧
      run others second = (.success, { second with output := second.output ++ more }) ∧
      (text = more ↔ m.withoutSpans = n.withoutSpans) ∧
      (m.withoutSpans = n.withoutSpans ↔
        m.canonicalText TypeModule.standardIndent = n.canonicalText TypeModule.standardIndent) := by
  refine ⟨_, _, run_view harguments hfirst, run_view hothers hsecond, ⟨Outline.printed_inj, ?_⟩,
    ?_, TypeModule.canonicalText_inj hfirst.wellFormed hsecond.wellFormed⟩
  · intro hsame
    rw [Outline.printed, ← Outline.ofModule_withoutSpans, hsame, Outline.ofModule_withoutSpans,
      ← Outline.printed]
  · intro hsame
    rw [← TypeModule.canonicalText_withoutSpans, hsame, TypeModule.canonicalText_withoutSpans]

/-- A world with a file that holds a module with fields of all kinds, indented in some way. -/
def outlinedWorld (name indent : String) : World :=
  ⟨⟨[], [([name], .file (oneOfEach.canonicalText indent).toUTF8)]⟩, .empty, false, false, "", ""⟩

/-- Files with the module in two arrangements have the same outline printed. -/
theorem run_view_eq_iff_outlinedWorld :
    ∃ text,
      run ["view", "a.wat"] (outlinedWorld "a.wat" "    ") =
        (.success, { outlinedWorld "a.wat" "    " with output := "" ++ text }) ∧
      run ["view", "b.wast"] (outlinedWorld "b.wast" "") =
        (.success, { outlinedWorld "b.wast" "" with output := "" ++ text }) := by
  have hwide : ∀ c ∈ "    ".toList, isGapChar c = true := List.all_eq_true.mp (by decide)
  have hnone : ∀ c ∈ "".toList, isGapChar c = true := List.all_eq_true.mp (by decide)
  have hwellFormed : oneOfEach.WellFormed := by decide
  obtain ⟨m, hm, hfirst⟩ := @World.exists_holdsModule (outlinedWorld "a.wat" "    ") "a.wat" "    "
    .standard oneOfEach hwellFormed hwide (by decide) rfl rfl rfl
  obtain ⟨n, hn, hsecond⟩ := @World.exists_holdsModule (outlinedWorld "b.wast" "") "b.wast" ""
    .standard oneOfEach hwellFormed hnone (by decide) rfl rfl rfl
  obtain ⟨text, more, htext, hmore, hsame, -⟩ := @run_view_eq_iff (outlinedWorld "a.wat" "    ")
    (outlinedWorld "b.wast" "") ["view", "a.wat"] ["view", "b.wast"] "a.wat" "b.wast" m n rfl rfl
    hm hn
  rw [← hsame.mpr (hfirst.trans hsecond.symm)] at hmore
  exact ⟨text, htext, hmore⟩

end CommandLine

end WatTypes
