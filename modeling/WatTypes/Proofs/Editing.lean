import Mathlib.Data.List.Forall2
import WatTypes.Editor.Session
import WatTypes.Proofs.RoundTrip

/-!
# An editor session follows the texts that are not lost

Each notice is about one document, and leaves it with a text or closed (`Notice.text?`). It is lost
if reading the text breaks off (`Notice.IsLost`), which is at a surrogate in a string literal only,
so that no notice of a text of characters is lost. A step puts what a notice gives in place of
whatever the session held of its document, and leaves the others as they are; a lost notice changes
nothing (`document?_step`). After a run a document is therefore the one of the last notice about it
that was not lost, whatever was before it and whatever else came behind it (`document?_afterAll`).
What the session answers about a document is what that text calls for (`Session.Shows`), and the
diagnostics published last are those of that text (`answers_of_last_notice`). That need not be the
last text of the document (`symbols_of_lost_change`).
-/

set_option autoImplicit false
set_option relaxedAutoImplicit false

namespace WatTypes

/-- What is refused is refused for a reason. -/
theorem TypeModule.diagnostics_ne_nil_of_read {file source : String} {limit : Option NestingLimit}
    {refusal : Refusal} (h : TypeModule.read file limit source = .error refusal) :
    refusal.diagnostics ≠ [] := by
  unfold TypeModule.read at h
  split at h
  · rename_i reason hread
    cases h
    unfold TokenList.read at hread
    simp only at hread
    split at hread
    · cases hread
    · rename_i faults hfaults
      cases hread
      exact hfaults
  · split at h
    · cases h
    · cases h
      exact List.cons_ne_nil _ _

/-! ### Characters that are turned into bytes -/

/-- A character that does not end a string literal, and starts no escape, stands for itself. -/
theorem Lexeme.encodedPositions_of_char {here : Place} {c : Char} {rest : List Char}
    (h : here.rest = c :: rest) (hquote : c ≠ '"') (hfeed : c ≠ '\n') (hbackslash : c ≠ '\\') :
    encodedPositions here = here.position :: encodedPositions (here.past [c] rest) := by
  obtain ⟨position, text⟩ := here
  cases h
  rw [encodedPositions]
  split <;> simp_all

/-- The characters of a string literal are among those of the source. -/
theorem Scan.encodedPositions_of_cons {here : Place} {c : Char} {rest : List Char}
    (h : here.rest = c :: rest) :
    encodedPositions here =
      (if c = '"' then Lexeme.encodedPositions (here.past [c] rest) else []) ++
        encodedPositions (Stretch.read "" here c rest).2 := by
  rw [encodedPositions]
  split <;> simp_all

namespace Editor

open SourceText

/-! ### Notices -/

/-- A notice is lost if reading the text that it gives its document breaks off. -/
def Notice.IsLost (notice : Notice) : Prop :=
  ∃ text, notice.text? = some text ∧ text.read? notice.uri = none

/-- A notice of a text gives the document of that text. -/
theorem Notice.document?_of_text? {notice : Notice} {text : SourceText}
    (htext : notice.text? = some text) :
    notice.document? = Document.ofText? notice.uri text := by
  rw [Notice.document?, htext, Option.bind_some]

/-- A lost notice gives no document. -/
theorem Notice.document?_of_isLost {notice : Notice} (h : notice.IsLost) :
    notice.document? = none := by
  obtain ⟨text, htext, hread⟩ := h
  rw [document?_of_text? htext, Document.ofText?, hread, Option.map_none]

/-- A notice that gives a document is not lost. -/
theorem Notice.not_isLost_of_document? {notice : Notice} {document : Document}
    (h : notice.document? = some document) : ¬notice.IsLost := by
  intro hlost
  rw [document?_of_isLost hlost] at h
  cases h

/-- A notice of a text from which no document comes is lost. -/
theorem Notice.isLost_of_document? {notice : Notice} {text : SourceText}
    (htext : notice.text? = some text) (h : notice.document? = none) : notice.IsLost := by
  rw [document?_of_text? htext, Document.ofText?, Option.map_eq_none_iff] at h
  exact ⟨text, htext, h⟩

/-- A notice of a text that is read gives the document of what it is read as. -/
theorem Notice.document?_of_read? {notice : Notice} {text : SourceText}
    {outcome : Except (List Report) TypeModule} (htext : notice.text? = some text)
    (hread : text.read? notice.uri = some outcome) : notice.document? = some ⟨text, outcome⟩ := by
  rw [document?_of_text? htext, Document.ofText?, hread, Option.map_some]

/-- A notice that gives its document a text without surrogates is not lost. -/
theorem Notice.not_isLost_of_ofString {notice : Notice} {source : String}
    (h : notice.text? = some (ofString source)) : ¬notice.IsLost := by
  rintro ⟨text, htext, hread⟩
  rw [h] at htext
  cases htext
  rw [read?_ofString] at hread
  cases hread

/-! ### Reading -/

namespace SourceText

variable {uri : String} {text : SourceText}

/-- Reading breaks off at a surrogate that stands for itself in a string literal, and nowhere
else. -/
theorem read?_eq_none_iff : text.read? uri = none ↔ ∃ place number,
    (place, number) ∈ text.surrogates ∧ place ∈ Scan.encodedPositions (.start text.seen) := by
  have hbreaks : text.breaksOff = true ↔ ∃ place number,
      (place, number) ∈ text.surrogates ∧ place ∈ Scan.encodedPositions (.start text.seen) := by
    simp [breaksOff, List.any_eq_true]
  rw [← hbreaks, read?]
  split
  · rename_i hbreak
    exact iff_of_true rfl hbreak
  · rename_i hread
    refine iff_of_false ?_ hread
    split <;> exact Option.some_ne_none _

/-- What is read as a module is read as it if the surrogates in it are seen as other characters. -/
theorem read_of_read? {m : TypeModule} (h : text.read? uri = some (.ok m)) :
    TypeModule.read uri none text.seen = .ok m := by
  unfold read? at h
  split at h
  · cases h
  split at h
  · cases hread : TypeModule.read uri none text.seen with
    | ok found =>
      rw [hread] at h
      cases h
      rfl
    | error refusal =>
      rw [hread] at h
      cases h
  · cases h

/-- What is refused is refused for a reason. -/
theorem reports_ne_nil_of_read? {reports : List Report}
    (h : text.read? uri = some (.error reports)) : reports ≠ [] := by
  unfold read? at h
  split at h
  · cases h
  split at h
  · cases hread : TypeModule.read uri none text.seen with
    | ok found =>
      rw [hread] at h
      cases h
    | error refusal =>
      rw [hread] at h
      cases h
      exact fun hnil ↦ TypeModule.diagnostics_ne_nil_of_read hread (List.map_eq_nil_iff.mp hnil)
  · rename_i hfaults
    cases h
    exact hfaults

/-- A text without surrogates is read as a module if and only if its characters are. -/
theorem read?_ofString_eq_ok_iff {source : String} {m : TypeModule} :
    read? uri source = some (.ok m) ↔ TypeModule.read uri none source = .ok m := by
  rw [read?_ofString, Option.some.injEq]
  cases TypeModule.read uri none source <;> simp [Except.mapError]

end SourceText

/-! ### Documents -/

namespace Document

variable {document : Document}

/-- A document of a session has been read from its text. -/
def IsReadAs (document : Document) (uri : String) : Prop :=
  document.text.read? uri = some document.outcome

theorem isReadAs_of_ofText? {uri : String} {text : SourceText}
    (h : ofText? uri text = some document) : document.text = text ∧ document.IsReadAs uri := by
  obtain ⟨outcome, houtcome, rfl⟩ := Option.map_eq_some_iff.mp h
  exact ⟨rfl, houtcome⟩

/-- A document shows no faults if and only if it has a module. -/
theorem markers_eq_nil_iff {uri : String} (h : document.IsReadAs uri) :
    document.markers = [] ↔ ∃ m, document.outcome = .ok m := by
  obtain ⟨text, outcome⟩ := document
  cases outcome with
  | ok m => exact ⟨fun _ ↦ ⟨m, rfl⟩, fun _ ↦ rfl⟩
  | error reports =>
    refine iff_of_false (fun hnil ↦ ?_) fun ⟨m, hm⟩ ↦ nomatch hm
    exact reports_ne_nil_of_read? h (List.map_eq_nil_iff.mp hnil)

/-- A document is not formatted if and only if it has faults. -/
theorem formatting_eq_none_iff : document.formatting = none ↔
    ∃ reports, document.outcome = .error reports := by
  obtain ⟨text, outcome⟩ := document
  cases outcome <;> simp [formatting, module?, Except.toOption]

/-- A document needs no edit if and only if its text is the canonical one of its module. -/
theorem formatting_eq_nil_iff : document.formatting = some [] ↔ ∃ m, document.outcome = .ok m ∧
    document.text = .ofString (m.canonicalText TypeModule.standardIndent) := by
  obtain ⟨text, outcome⟩ := document
  cases outcome with
  | error reports => simp [formatting, module?, Except.toOption]
  | ok m =>
    by_cases hcanonical : SourceText.ofString (m.canonicalText TypeModule.standardIndent) = text
    · simp [formatting, module?, Except.toOption, hcanonical]
    · have hother : ¬ text = .ofString (m.canonicalText TypeModule.standardIndent) :=
        fun h ↦ hcanonical h.symm
      simp [formatting, module?, Except.toOption, hcanonical, hother]

end Document

/-! ### Sessions -/

namespace Session

variable {session : Session} {uri : String}

/-- The session after notices, from one with no document open. -/
def afterAll (notices : List Notice) : Session := notices.foldl step empty

/-- The first entry of a name counts. -/
theorem document?_cons (name uri : String) (document : Document)
    (others : List (String × Document)) :
    (Session.mk ((name, document) :: others)).document? uri =
      if name = uri then some document else (Session.mk others).document? uri := by
  unfold document?
  rw [List.lookup_cons]
  by_cases hname : name = uri
  · subst hname
    simp
  · have hother : (uri == name) = false := by simpa using fun h ↦ hname h.symm
    rw [hother, if_neg hname]

/-- A further notice is a step. -/
theorem afterAll_append_singleton (notices : List Notice) (notice : Notice) :
    afterAll (notices ++ [notice]) = (afterAll notices).step notice := by
  rw [afterAll, List.foldl_append]
  rfl

/-- A closed document is not there, and the others are as they were. -/
theorem document?_close (session : Session) (closed uri : String) :
    (session.close closed).document? uri =
      if closed = uri then none else session.document? uri := by
  obtain ⟨documents⟩ := session
  unfold close
  induction documents with
  | nil => exact (ite_self none).symm
  | cons entry others ih =>
    obtain ⟨name, document⟩ := entry
    simp only at ih
    by_cases hname : name = closed
    · subst hname
      rw [List.filter_cons_of_neg (by simp), ih, document?_cons]
      by_cases huri : name = uri
      · rw [if_pos huri, if_pos huri]
      · rw [if_neg huri, if_neg huri, if_neg huri]
    · rw [List.filter_cons_of_pos (by simpa using hname), document?_cons, ih, document?_cons]
      by_cases huri : name = uri
      · have hclosed : closed ≠ uri := fun h ↦ hname (huri.trans h.symm)
        rw [if_pos huri, if_neg hclosed, if_pos huri]
      · rw [if_neg huri, if_neg huri]

/-- A document that is put into a session is there, and the others are as they were. -/
theorem document?_put (session : Session) (changed uri : String) (document : Document) :
    (session.put changed document).document? uri =
      if changed = uri then some document else session.document? uri := by
  rw [put, document?_cons]
  change (if changed = uri then some _ else (session.close changed).document? uri) = _
  rw [document?_close]
  by_cases huri : changed = uri
  · rw [if_pos huri, if_pos huri]
  · rw [if_neg huri, if_neg huri, if_neg huri]

/-- A lost notice changes nothing. -/
theorem step_of_isLost {notice : Notice} (h : notice.IsLost) : session.step notice = session := by
  have hdocument := Notice.document?_of_isLost h
  obtain ⟨text, htext, -⟩ := h
  cases notice with
  | opened | changed => simp only [step, hdocument]
  | closed => cases htext

/-- Any other notice leaves its document with the text that it gives it, or closed, and the others
as they were. -/
theorem document?_step {notice : Notice} (h : ¬notice.IsLost) (uri : String) :
    (session.step notice).document? uri =
      if notice.uri = uri then notice.document? else session.document? uri := by
  have hput {text : SourceText} (htext : notice.text? = some text) :
      ∃ document, notice.document? = some document := by
    rw [← Option.isSome_iff_exists, Option.isSome_iff_ne_none]
    exact fun hnone ↦ h (Notice.isLost_of_document? htext hnone)
  cases notice with
  | opened changed text | changed changed texts =>
    obtain ⟨document, hdocument⟩ := hput rfl
    simp only [step, hdocument]
    exact document?_put session changed uri document
  | closed closed => exact document?_close session closed uri

/-- Lost notices, and those about other documents, leave a document as it was. -/
theorem document?_foldl_step {notices : List Notice}
    (h : ∀ notice ∈ notices, notice.uri = uri → notice.IsLost) :
    (notices.foldl step session).document? uri = session.document? uri := by
  induction notices generalizing session with
  | nil => rfl
  | cons notice others ih =>
    obtain ⟨hnotice, hothers⟩ := List.forall_mem_cons.mp h
    rw [List.foldl_cons, ih hothers]
    by_cases hlost : notice.IsLost
    · rw [step_of_isLost hlost]
    · rw [document?_step hlost, if_neg fun huri ↦ hlost (hnotice huri)]

/-- A document is the one of the last notice about it that is not lost. -/
theorem document?_afterAll (earlier : List Notice) {last : Notice} {later : List Notice}
    (hlast : ¬last.IsLost) (h : ∀ notice ∈ later, notice.uri = last.uri → notice.IsLost) :
    (afterAll (earlier ++ last :: later)).document? last.uri = last.document? := by
  rw [afterAll, List.foldl_append, List.foldl_cons, document?_foldl_step h, document?_step hlast,
    if_pos rfl]

/-! ### Answers -/

/-- A session answers about a document as about one that is not open. -/
def ShowsNothing (session : Session) (uri : String) : Prop :=
  session.symbols uri = [] ∧ session.formatting uri = none

/-- A session answers about a document as about one with a given text, of which `markers` have been
published. -/
structure Shows (session : Session) (uri : String) (text : SourceText) (markers : List Marker) :
    Prop where
  /-- All faults of the text are published, in order. -/
  markers_of_error : ∀ reports, text.read? uri = some (.error reports) →
    markers = reports.map .ofReport
  /-- There are none exactly where the text is read. -/
  markers_eq_nil_iff : markers = [] ↔ ∃ m, text.read? uri = some (.ok m)
  /-- A text with faults has no symbols. -/
  symbols_of_error : ∀ reports, text.read? uri = some (.error reports) → session.symbols uri = []
  /-- Otherwise each field has its symbol, in order, with its identifier or its keyword as name. -/
  symbols_of_ok : ∀ m, text.read? uri = some (.ok m) →
    List.Forall₂ (fun symbol field ↦ (∀ id, field.id = some id → symbol.name = "$" ++ id.name) ∧
        (field.id = none → symbol.name = "<" ++ field.declaration.keyword ++ ">"))
      (session.symbols uri) m.fields
  /-- A text with faults is not formatted. -/
  formatting_eq_none_iff : session.formatting uri = none ↔
    ∃ reports, text.read? uri = some (.error reports)
  /-- A text in canonical form needs no edit. -/
  formatting_eq_nil_iff : session.formatting uri = some [] ↔
    ∃ m, text.read? uri = some (.ok m) ∧
      text = .ofString (m.canonicalText TypeModule.standardIndent)

/-- About a document that is not open nothing is shown. -/
theorem showsNothing_of_document? (h : session.document? uri = none) :
    session.ShowsNothing uri := by
  constructor
  · rw [symbols, h]
    rfl
  · rw [formatting, h]
    rfl

/-- The symbol of a field bears the identifier of the field, or else its keyword. -/
theorem name_ofField (field : Field) :
    (∀ id, field.id = some id → (DocumentSymbol.ofField field).name = "$" ++ id.name) ∧
      (field.id = none →
        (DocumentSymbol.ofField field).name = "<" ++ field.declaration.keyword ++ ">") := by
  obtain ⟨id, declaration, span⟩ := field
  cases id with
  | none => exact ⟨fun id hid ↦ (nomatch hid), fun _ ↦ rfl⟩
  | some found => exact ⟨fun id hid ↦ Option.some.inj hid ▸ rfl, fun hid ↦ (nomatch hid)⟩

/-- About an open document is shown what its text calls for. -/
theorem shows_of_document? {document : Document} (h : session.document? uri = some document)
    (hread : document.IsReadAs uri) : session.Shows uri document.text document.markers := by
  have hsymbols : session.symbols uri = document.symbols := by
    rw [symbols, h]
    rfl
  have hformatting : session.formatting uri = document.formatting := by
    rw [formatting, h]
    rfl
  have houtcome (outcome : Except (List Report) TypeModule) :
      document.text.read? uri = some outcome ↔ document.outcome = outcome := by
    rw [hread, Option.some.injEq]
  refine ⟨?_, ?_, ?_, ?_, ?_, ?_⟩
  · intro reports hreports
    simp only [Document.markers, (houtcome _).mp hreports]
  · simp only [houtcome]
    exact Document.markers_eq_nil_iff hread
  · intro reports hreports
    rw [hsymbols, Document.symbols, Document.module?, (houtcome _).mp hreports]
    rfl
  · intro m hm
    rw [hsymbols, Document.symbols, Document.module?, (houtcome _).mp hm]
    simp only [Except.toOption, List.forall₂_map_left_iff, List.forall₂_same]
    exact fun field _ ↦ name_ofField field
  · simp only [hformatting, houtcome]
    exact Document.formatting_eq_none_iff
  · simp only [hformatting, houtcome]
    exact Document.formatting_eq_nil_iff

/-- The diagnostics published at a notice are those of the document that it gives. -/
theorem Notice.published_of_not_isLost {notice : Notice} {text : SourceText}
    (htext : notice.text? = some text) (h : ¬notice.IsLost) :
    ∃ document : Document, notice.document? = some document ∧ document.text = text ∧
      document.IsReadAs notice.uri ∧ notice.published = some (notice.uri, document.markers) := by
  cases hdocument : notice.document? with
  | none => exact absurd (Notice.isLost_of_document? htext hdocument) h
  | some document =>
    have hread := hdocument
    rw [Notice.document?_of_text? htext] at hread
    obtain ⟨hsame, hreadAs⟩ := Document.isReadAs_of_ofText? hread
    refine ⟨document, rfl, hsame, hreadAs, ?_⟩
    rw [Notice.published, hdocument, Option.map_some]

/-- Nothing is published about a document at a notice that is lost or about another one. -/
theorem Notice.published_ne {notice : Notice} (h : notice.uri = uri → notice.IsLost)
    (markers : List Marker) : notice.published ≠ some (uri, markers) := by
  intro hpublished
  obtain ⟨document, hdocument, hpair⟩ := Option.map_eq_some_iff.mp hpublished
  exact Notice.not_isLost_of_document? hdocument (h (congrArg Prod.fst hpair))

/-- After any notices a session answers nothing about a document about which all of them were lost.
About another one it answers by what the last notice about it that was not lost left it with,
whatever came before and whatever other documents were noticed behind: nothing if it was closed, and
otherwise what its text calls for, of which the diagnostics were published at that notice. Further
notices that are lost or about other documents change no answer, and publish nothing about it. Lost
are the notices of texts with a surrogate that stands for itself in a string literal; a text without
surrogates is read as a source. -/
theorem answers_of_last_notice (notices : List Notice) (uri : String) :
    ((∀ notice ∈ notices, notice.uri = uri → notice.IsLost) →
      (afterAll notices).ShowsNothing uri) ∧
    (∀ earlier last later, notices = earlier ++ last :: later → last.uri = uri → ¬last.IsLost →
      (∀ notice ∈ later, notice.uri = uri → notice.IsLost) →
        (last.text? = none → (afterAll notices).ShowsNothing uri) ∧
        ∀ text, last.text? = some text → ∃ markers,
          last.published = some (uri, markers) ∧ (afterAll notices).Shows uri text markers) ∧
    (∀ notice : Notice, (notice.uri = uri → notice.IsLost) →
      (afterAll (notices ++ [notice])).symbols uri = (afterAll notices).symbols uri ∧
        (afterAll (notices ++ [notice])).formatting uri = (afterAll notices).formatting uri ∧
        ∀ markers, notice.published ≠ some (uri, markers)) ∧
    (∀ notice : Notice, notice.IsLost ↔ ∃ text place number, notice.text? = some text ∧
      (place, number) ∈ text.surrogates ∧
        place ∈ Scan.encodedPositions (.start text.seen)) ∧
    ∀ source : String, SourceText.read? uri source =
      some ((TypeModule.read uri none source).mapError fun refusal ↦
        refusal.diagnostics.map .ofDiagnostic) := by
  refine ⟨fun hlost ↦ showsNothing_of_document? (document?_foldl_step hlost), ?_, ?_, ?_,
    read?_ofString uri⟩
  · rintro earlier last later rfl rfl hlast hlater
    have hdocument := document?_afterAll earlier hlast hlater
    constructor
    · intro hclosed
      rw [Notice.document?, hclosed, Option.bind_none] at hdocument
      exact showsNothing_of_document? hdocument
    · intro text htext
      obtain ⟨document, hgiven, rfl, hread, hpublished⟩ :=
        Notice.published_of_not_isLost htext hlast
      exact ⟨_, hpublished, shows_of_document? (hdocument.trans hgiven) hread⟩
  · intro notice hother
    have hkept : (afterAll (notices ++ [notice])).document? uri =
        (afterAll notices).document? uri := by
      rw [afterAll, List.foldl_append]
      exact document?_foldl_step fun found hfound ↦ List.mem_singleton.mp hfound ▸ hother
    exact ⟨by rw [symbols, hkept, symbols], by rw [formatting, hkept, formatting],
      Notice.published_ne hother⟩
  · intro notice
    simp only [Notice.IsLost, read?_eq_none_iff, exists_and_left]

/-- A string literal that holds a surrogate. -/
def brokenText : SourceText := ⟨[.char '"', .surrogate 0, .char '"']⟩

/-- Reading a string literal that holds a surrogate breaks off. -/
theorem read?_brokenText (uri : String) : brokenText.read? uri = none := by
  have hseen : (Place.start brokenText.seen).rest = ['"', '\ufffd', '"'] := String.toList_ofList
  have hinside : Lexeme.encodedPositions
      ((Place.start brokenText.seen).past ['"'] ['\ufffd', '"']) ⊆
        Scan.encodedPositions (.start brokenText.seen) := by
    rw [Scan.encodedPositions_of_cons hseen]
    exact List.subset_append_left _ _
  refine read?_eq_none_iff.mpr ⟨⟨1, 2⟩, 0, List.mem_singleton_self _, hinside ?_⟩
  rw [Lexeme.encodedPositions_of_char rfl (by decide) (by decide) (by decide)]
  exact List.mem_cons_self

/-- The text of a memory is read, and is in canonical form. -/
theorem exists_read_memoryText : ∃ m, TypeModule.read "a" none "(memory 1)\n" = .ok m ∧
    m.fields.length = 1 ∧ "(memory 1)\n" = m.canonicalText TypeModule.standardIndent := by
  let place : Span := .single "" .first
  let memory : TypeModule := ⟨none, [⟨none, .memory ⟨⟨1, none⟩, false⟩, place⟩], place⟩
  have hwellFormed : memory.WellFormed := by decide
  have htext : memory.canonicalText TypeModule.standardIndent = "(memory 1)\n" := rfl
  obtain ⟨m, hm, hspans⟩ := read_canonicalText hwellFormed
    (List.all_eq_true.mp (by decide) : ∀ c ∈ TypeModule.standardIndent.toList, isGapChar c = true)
    (nests_lexemes hwellFormed) "a"
  have hfields := congrArg (·.fields.length) hspans
  simp only [TypeModule.withoutSpans, List.length_map] at hfields
  rw [htext] at hm
  refine ⟨m, hm, hfields, ?_⟩
  rw [← m.canonicalText_withoutSpans, hspans, memory.canonicalText_withoutSpans, htext]

/-- A document that is changed before it is opened, closed, opened with a fault, brought into
canonical form while another one is open, and changed to a text of which reading breaks off; the
other one is closed, and changed without a text. -/
def interleavedNotices : List Notice :=
  [.changed "a" [], .opened "b" "(", .closed "a", .opened "a" ")",
    .changed "a" ["x", "(memory 1)\n"], .changed "a" [brokenText], .closed "b", .changed "b" []]

theorem answers_of_last_notice_interleaved :
    (afterAll interleavedNotices).ShowsNothing "c" ∧
    (∃ markers, (Notice.changed "a" ["x", "(memory 1)\n"]).published = some ("a", markers) ∧
      markers = []) ∧
    (afterAll interleavedNotices).formatting "a" = some [] ∧
    (afterAll (interleavedNotices.take 3)).ShowsNothing "a" := by
  obtain ⟨hnone, -, -⟩ := answers_of_last_notice interleavedNotices "c"
  obtain ⟨-, hopen, -⟩ := answers_of_last_notice interleavedNotices "a"
  obtain ⟨-, hshut, -⟩ := answers_of_last_notice (interleavedNotices.take 3) "a"
  obtain ⟨-, htext⟩ := hopen (interleavedNotices.take 4) (.changed "a" ["x", "(memory 1)\n"])
    [.changed "a" [brokenText], .closed "b", .changed "b" []] rfl rfl
    (Notice.not_isLost_of_ofString rfl) (by
      simp only [List.forall_mem_cons, Notice.uri]
      exact ⟨fun _ ↦ ⟨brokenText, rfl, read?_brokenText "a"⟩, fun h ↦ absurd h (by decide),
        fun h ↦ absurd h (by decide), fun _ h ↦ (List.not_mem_nil h).elim⟩)
  obtain ⟨hclosed, -⟩ := hshut [.changed "a" [], .opened "b" "("] (.closed "a") [] rfl rfl
    (by rintro ⟨text, htext, -⟩; cases htext) (by simp)
  obtain ⟨markers, hpublished, hshows⟩ := htext _ rfl
  obtain ⟨m, hm, -, hcanonical⟩ := exists_read_memoryText
  have hread : SourceText.read? "a" "(memory 1)\n" = some (.ok m) :=
    read?_ofString_eq_ok_iff.mpr hm
  have hothers : ∀ notice ∈ interleavedNotices, notice.uri ≠ "c" := by decide
  exact ⟨hnone fun notice hnotice huri ↦ absurd huri (hothers notice hnotice),
    ⟨markers, hpublished, hshows.markers_eq_nil_iff.mpr ⟨m, hread⟩⟩,
    hshows.formatting_eq_nil_iff.mpr ⟨m, hread, congrArg ofString hcanonical⟩, hclosed rfl⟩

/-- A session need not answer by the last text of a document: nothing is published of a text of
which reading breaks off, and the symbols and edits are those of the text before. -/
theorem symbols_of_lost_change :
    let lost : Notice := .changed "a" [brokenText]
    let session := afterAll [.opened "a" "(memory 1)\n", lost]
    lost.published = none ∧ (∀ m, brokenText.read? "a" ≠ some (.ok m)) ∧
      session.symbols "a" ≠ [] ∧ session.formatting "a" = some [] := by
  intro lost session
  have hlost : lost.IsLost := ⟨brokenText, rfl, read?_brokenText "a"⟩
  obtain ⟨m, hm, hfields, hcanonical⟩ := exists_read_memoryText
  have hread : SourceText.read? "a" "(memory 1)\n" = some (.ok m) :=
    read?_ofString_eq_ok_iff.mpr hm
  have hopened : (Notice.opened "a" "(memory 1)\n").document? = some ⟨"(memory 1)\n", .ok m⟩ :=
    Notice.document?_of_read? rfl hread
  have hdocument : session.document? "a" = some ⟨"(memory 1)\n", .ok m⟩ :=
    (document?_afterAll [] (Notice.not_isLost_of_document? hopened)
      fun notice hnotice _ ↦ List.mem_singleton.mp hnotice ▸ hlost).trans hopened
  have hshows := shows_of_document? hdocument hread
  refine ⟨?_, fun found hfound ↦ ?_, fun hnil ↦ ?_, ?_⟩
  · rw [Notice.published, Notice.document?_of_isLost hlost, Option.map_none]
  · rw [read?_brokenText] at hfound
    cases hfound
  · have hsame := (hshows.symbols_of_ok m hread).length_eq
    rw [hnil, hfields] at hsame
    cases hsame
  · exact hshows.formatting_eq_nil_iff.mpr ⟨m, hread, congrArg ofString hcanonical⟩

end Session

end Editor

end WatTypes
