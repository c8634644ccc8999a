import WatTypes.CommandLine.Run
import WatTypes.Proofs.CanonicalForm
import WatTypes.Proofs.DepthLimit
import WatTypes.Proofs.Editing
import WatTypes.Proofs.RoundTrip
import WatTypes.Proofs.Sources
import WatTypes.Proofs.Wording

/-!
# No module nests deeper than five parentheses

The grammar nests five deep: the display name of a parameter in a group in a signature in a field in
a module. Hence no prefix of the tokens of a module leaves more than five parentheses open, and a
limit of five or more refuses nothing that is read without one (`read_of_five_le`). Checking files
under such a limit therefore finds faults in the same sources as an editor, which sets no limit
(`nests_five_deep`).
-/

set_option autoImplicit false
set_option relaxedAutoImplicit false

namespace WatTypes

open CommandLine Editor Grammar Lexeme

section

variable {file source : String}

/-- The tokens of a module leave five parentheses open at most. -/
theorem count_le_of_read {m : TypeModule} (h : TypeModule.read file none source = .ok m) :
    ∃ tokens, TokenList.read file none source = .ok tokens ∧
      ∀ front, front <+: lexemesOf tokens.toList →
        front.count .opening ≤ front.count .closing + 5 := by
  obtain ⟨tokens, htokens, hmodule, -⟩ := TypeModule.read_eq_ok_iff.mp h
  have hwording : Wording 5 (lexemesOf tokens.body) := wordedIn_module hmodule
  refine ⟨tokens, htokens, fun front hfront ↦ ?_⟩
  have hend : lexemesOf tokens.toList = lexemesOf tokens.body ++ [.endOfInput] := by
    simp [TokenList.toList]
  rw [hend] at hfront
  rcases List.prefix_concat_iff.mp hfront with rfl | hbody
  · have hwhole := hwording.closed
    simp only [List.count_append, hwhole]
    exact Nat.le_add_right _ 5
  · exact hwording.bounded front hbody

/-- Assumes: a limit that allows five open parentheses. It makes no difference to which sources are
read, and as which modules. -/
theorem read_of_five_le {limit : NestingLimit} (hfive : 5 ≤ limit.depth) (m : TypeModule) :
    TypeModule.read file (some limit) source = .ok m ↔
      TypeModule.read file none source = .ok m := by
  obtain ⟨depth, shown⟩ := limit
  obtain ⟨greatest, rfl⟩ : ∃ greatest : Nat, depth = greatest :=
    Int.eq_ofNat_of_zero_le (Int.le_trans (by decide) hfive)
  have hgreatest : 5 ≤ greatest := Int.ofNat_le.mp hfive
  rw [TypeModule.read_eq_ok_iff, TypeModule.read_eq_ok_iff]
  constructor
  · rintro ⟨tokens, htokens, hmodule⟩
    exact ⟨tokens, (read_of_limit_iff.mp htokens).1, hmodule⟩
  · rintro ⟨tokens, htokens, hmodule⟩
    have hwording : Wording 5 (lexemesOf tokens.body) := wordedIn_module hmodule.1
    refine ⟨tokens, read_of_limit_iff.mpr ⟨htokens, fun front hfront ↦ ?_⟩, hmodule⟩
    exact Nat.le_trans (hwording.bounded front hfront) (Nat.add_le_add_left hgreatest _)

/-- Checking a file tells whether its source is refused under the limit that is set. -/
theorem CommandLine.Program.checkFile_of_readModule {settings : Settings} {path : Path}
    {world : World} {outcome : Except Refusal TypeModule}
    (hsource : world.tree.readText path = .ok source)
    (hread : settings.readModule path.toString source = .ok outcome) :
    (checkFile settings path world).1 = .ok (!outcome.isOk) := by
  have hfile : readFile path world = (.ok source, world) := by
    simp [readFile, orFail, hsource, Except.mapError]
  have houtcome : (orFail Failure.settings (settings.readModule path.toString source) :
      Program (Except Refusal TypeModule)) world = (.ok outcome, world) := by
    simp [orFail, hread, Except.mapError]
  simp only [checkFile, Step.bind_apply, hfile, houtcome]
  cases outcome <;> rfl

/-- The document of a source shows faults if and only if the source is refused, under whatever
name. -/
theorem Editor.Document.exists_ofText? (uri file text : String) :
    ∃ document, ofText? uri text = some document ∧
      document.markers.isEmpty = (TypeModule.read file none text).isOk := by
  have hname {file again : String} {m : TypeModule} (h : TypeModule.read file none text = .ok m) :
      ∃ found, TypeModule.read again none text = .ok found := by
    obtain ⟨found, hfound, -⟩ := TypeModule.exists_read_inFile again h
    exact ⟨found, hfound⟩
  let document : Document := ⟨text, (TypeModule.read uri none text).mapError fun refusal ↦
    refusal.diagnostics.map .ofDiagnostic⟩
  have hdocument : document.IsReadAs uri := SourceText.read?_ofString uri text
  refine ⟨document, congrArg (Option.map _) hdocument, ?_⟩
  rw [Bool.eq_iff_iff, List.isEmpty_iff, markers_eq_nil_iff hdocument]
  constructor
  · rintro ⟨m, hm⟩
    have htext : TypeModule.read uri none text = .ok m :=
      SourceText.read?_ofString_eq_ok_iff.mp (hdocument.trans (congrArg some hm))
    obtain ⟨found, hfound⟩ : ∃ found, TypeModule.read file none text = .ok found := hname htext
    rw [hfound]
    rfl
  · intro hok
    cases hfile : TypeModule.read file none text with
    | ok m =>
      obtain ⟨found, hfound⟩ : ∃ found, TypeModule.read uri none text = .ok found := hname hfile
      exact ⟨found, by simp only [document, hfound, Except.mapError]⟩
    | error refusal =>
      rw [hfile] at hok
      cases hok

/-- A module nests five deep at most. No prefix of the tokens of a source that is read leaves more
parentheses open; a limit that allows five makes no difference to which sources are read and as
which modules; and checking a file under such a limit finds faults if and only if an editor, which
sets no limit, shows any in its source. -/
theorem nests_five_deep (file source : String) :
    (∀ m, TypeModule.read file none source = .ok m →
      ∃ tokens, TokenList.read file none source = .ok tokens ∧
        ∀ front, front <+: lexemesOf tokens.toList →
          front.count .opening ≤ front.count .closing + 5) ∧
    (∀ limit : NestingLimit, 5 ≤ limit.depth → ∀ m,
      TypeModule.read file (some limit) source = .ok m ↔
        TypeModule.read file none source = .ok m) ∧
    ∀ (settings : Settings) (depth : Int), settings.maxDepth = some (.integer depth) → 5 ≤ depth →
      ∀ (path : Path) (world : World) (uri : String), world.tree.readText path = .ok source →
        ∃ document, Document.ofText? uri source = some document ∧
          (Program.checkFile settings path world).1 = .ok (!document.markers.isEmpty) := by
  refine ⟨fun m ↦ count_le_of_read, fun limit hfive ↦ read_of_five_le hfive, ?_⟩
  intro settings depth hdepth hfive path world uri hsource
  have hread : settings.readModule path.toString source =
      .ok (TypeModule.read path.toString (some (.ofInt depth)) source) := by
    simp [Settings.readModule, Settings.limit, hdepth]
  obtain ⟨document, hdocument, hmarkers⟩ := Document.exists_ofText? uri path.toString source
  refine ⟨document, hdocument, ?_⟩
  rw [Program.checkFile_of_readModule hsource hread, hmarkers]
  have hsame (m : TypeModule) :
      TypeModule.read path.toString (some (.ofInt depth)) source = .ok m ↔
        TypeModule.read path.toString none source = .ok m := read_of_five_le hfive m
  congr 2
  cases hnone : TypeModule.read path.toString none source with
  | ok m => rw [(hsame m).mpr hnone]
  | error refusal =>
    cases hlimit : TypeModule.read path.toString (some (.ofInt depth)) source with
    | error other => rfl
    | ok m =>
      rw [(hsame m).mp hlimit] at hnone
      cases hnone

end

/-- A module in parentheses with a parameter that bears a display name. -/
def deepest : TypeModule :=
  let place : Span := .single "" .first
  ⟨some ⟨"m", place⟩, [⟨none, .type ⟨[⟨.i32, none, some ⟨"x", place⟩⟩], []⟩, place⟩], place⟩

/-- The canonical text of that module. -/
def deepestText : String := "(module $m\n(type (func (param (@name \"x\") i32))))\n"

/-- The text is read under a limit of five and not under one of four, and checking a file with it
under a limit of five finds no fault. -/
theorem nests_five_deep_deepest :
    ∃ m, TypeModule.read "" none deepestText = .ok m ∧
      (∃ tokens, TokenList.read "" none deepestText = .ok tokens ∧
        ∀ front, front <+: lexemesOf tokens.toList →
          front.count .opening ≤ front.count .closing + 5) ∧
      TypeModule.read "" (some (.ofInt 5)) deepestText = .ok m ∧
      (∀ found, TypeModule.read "" (some (.ofInt 4)) deepestText ≠ .ok found) ∧
      ∃ document, Document.ofText? "" deepestText = some document ∧
        (Program.checkFile ⟨some (.integer 5), .boolean true⟩ ⟨false, ["m.wat"]⟩
          ⟨⟨[], [(["m.wat"], .file deepestText.toUTF8)]⟩, .empty, false, true, "", ""⟩).1 =
            .ok (!document.markers.isEmpty) ∧
        document.markers = [] := by
  obtain ⟨hbound, hlimit, hcheck⟩ := nests_five_deep "" deepestText
  have htext : deepest.canonicalText "" = deepestText := rfl
  have hwellFormed : deepest.WellFormed := by decide
  have hindent : ∀ c ∈ "".toList, isGapChar c = true := List.all_eq_true.mp (by decide)
  obtain ⟨m, hm, -⟩ := read_canonicalText hwellFormed hindent (nests_lexemes hwellFormed) ""
  rw [htext] at hm
  have hlayout := layout_canonicalText hwellFormed hindent
  rw [htext] at hlayout
  obtain ⟨tokens, htokens, hlexemes⟩ := read_of_layout "" hlayout (nests_lexemes hwellFormed)
  have hfile : FileTree.decoded deepestText.toUTF8 = .ok deepestText :=
    FileTree.decoded_toUTF8 deepestText
  obtain ⟨document, hdocument, hstatus⟩ :=
    hcheck ⟨some (.integer 5), .boolean true⟩ 5 rfl (by decide) ⟨false, ["m.wat"]⟩
      ⟨⟨[], [(["m.wat"], .file deepestText.toUTF8)]⟩, .empty, false, true, "", ""⟩ "" hfile
  obtain ⟨hsame, hreadAs⟩ := Document.isReadAs_of_ofText? hdocument
  have houtcome : document.outcome = .ok m := by
    rw [Document.IsReadAs, hsame, SourceText.read?_ofString_eq_ok_iff.mpr hm] at hreadAs
    exact (Option.some.inj hreadAs).symm
  refine ⟨m, hm, hbound m hm, (hlimit (.ofInt 5) (by decide) m).mpr hm, fun found hfound ↦ ?_,
    document, hdocument, hstatus, (Document.markers_eq_nil_iff hreadAs).mpr ⟨m, houtcome⟩⟩
  obtain ⟨others, hothers, -⟩ := TypeModule.read_eq_ok_iff.mp hfound
  have hfour : TokenList.read "" (some ⟨(4 : Nat), "4"⟩) deepestText = .ok others := hothers
  obtain ⟨hsame, hfronts⟩ := read_of_limit_iff.mp hfour
  rw [htokens, Except.ok.injEq] at hsame
  rw [← hsame, hlexemes] at hfronts
  have hdeep := hfronts (deepest.lexemes.take 12) (List.take_prefix _ _)
  exact absurd hdeep (by decide)

end WatTypes
