import WatTypes.Canonical
import WatTypes.Proofs.Layout.Spelling

/-!
# Canonical text is a layout

Lexemes on one line, parted as they are by `Lexeme.spaced`, are laid out wherever something else
than the rest of a word follows (`laysOut_spaced`), and so are lines of lexemes with blanks in
front. The lexemes of a tree that can be written are spelled as they are read, and so the canonical
text of a module lays out its lexemes, whatever the indent (`layout_canonicalText`).
-/

set_option autoImplicit false
set_option relaxedAutoImplicit false

namespace WatTypes

namespace Lexeme

/-! ### Lines of lexemes -/

/-- What a text starts with cannot be taken for a part of what stands before it. -/
def IsParted (text : List Char) : Prop := ∀ c ∈ text.head?, isIdChar c = false ∧ c ≠ ';'

theorem isParted_nil : IsParted [] := fun c hc ↦ by cases hc

theorem IsParted.mayPrecede {text : List Char} (h : IsParted text) (lexeme : Lexeme) :
    MayPrecede lexeme text := by
  cases lexeme with
  | opening => exact fun hhead ↦ (h ';' hhead).2 rfl
  | closing => exact trivial
  | string _ => exact trivial
  | _ => exact fun c hc ↦ (h c hc).1

/-- A text lays out lexemes in front of every other layout that does not go on with a word. -/
def LaysOut (lexemes : List Lexeme) (text : List Char) : Prop :=
  ∀ ⦃more rest⦄, Layout more rest → IsParted rest → Layout (lexemes ++ more) (text ++ rest)

/-- What lays out lexemes in front of others lays them out alone. -/
theorem LaysOut.layout {lexemes : List Lexeme} {text : List Char} (h : LaysOut lexemes text) :
    Layout lexemes text := by
  simpa using h .nil isParted_nil

theorem laysOut_nil : LaysOut [] [] := fun _ _ hmore _ ↦ hmore

/-- Blanks may stand in front. -/
theorem LaysOut.indented {lexemes : List Lexeme} {text blanks : List Char}
    (h : LaysOut lexemes text) (hblanks : ∀ c ∈ blanks, isGapChar c = true) :
    LaysOut lexemes (blanks ++ text) := by
  intro more rest hmore hrest
  induction blanks with
  | nil => exact h hmore hrest
  | cons c others ih =>
    exact .gap (hblanks c List.mem_cons_self)
      (ih fun d hd ↦ hblanks d (List.mem_cons_of_mem c hd))

/-- Lexemes on one line and lexemes on the next. -/
theorem LaysOut.line {first second : List Lexeme} {before behind : List Char}
    (hfirst : LaysOut first before) (hsecond : LaysOut second behind) :
    LaysOut (first ++ second) (before ++ '\n' :: behind) := by
  intro more rest hmore hrest
  rw [List.append_assoc, List.append_assoc, List.cons_append]
  refine hfirst (.gap (by decide) (hsecond hmore hrest)) fun c hc ↦ ?_
  cases hc
  decide

/-- Assumes: each item has a line that lays it out. Lines lay out their items one after the
other. -/
theorem laysOut_intercalate {α : Type} (items : List α) (lexemes : α → List Lexeme)
    (line : α → String) (h : ∀ item ∈ items, LaysOut (lexemes item) (line item).toList) :
    LaysOut (items.flatMap lexemes) (String.intercalate "\n" (items.map line)).toList := by
  induction items with
  | nil => exact laysOut_nil
  | cons first others ih =>
    have hfirst := h first List.mem_cons_self
    have hothers := ih fun item hitem ↦ h item (List.mem_cons_of_mem first hitem)
    cases others with
    | nil => simpa using hfirst
    | cons second others =>
      have htext : (String.intercalate "\n" ((first :: second :: others).map line)).toList =
          (line first).toList ++
            '\n' :: (String.intercalate "\n" ((second :: others).map line)).toList := by
        simp [String.intercalate_cons_cons]
      rw [htext, List.flatMap_cons]
      exact hfirst.line hothers

/-- A lexeme whose canonical spelling is read as the lexeme. -/
def IsLegible (lexeme : Lexeme) : Prop := Spells lexeme.spelling.toList lexeme

/-- Lexemes all of which are legible. -/
def AreLegible (lexemes : List Lexeme) : Prop := ∀ lexeme ∈ lexemes, lexeme.IsLegible

theorem areLegible_nil : AreLegible [] := fun _ h ↦ (List.not_mem_nil h).elim

theorem AreLegible.cons {first : Lexeme} {others : List Lexeme} (hfirst : first.IsLegible)
    (hothers : AreLegible others) : AreLegible (first :: others) :=
  List.forall_mem_cons.mpr ⟨hfirst, hothers⟩

theorem AreLegible.append {first second : List Lexeme} (hfirst : AreLegible first)
    (hsecond : AreLegible second) : AreLegible (first ++ second) :=
  List.forall_mem_append.mpr ⟨hfirst, hsecond⟩

theorem AreLegible.parenthesised {inner : List Lexeme} (h : AreLegible inner) :
    AreLegible (Lexeme.parenthesised inner) :=
  .cons .opening (h.append (.cons .closing areLegible_nil))

theorem areLegible_flatMap {α : Type} {items : List α} {lexemes : α → List Lexeme}
    (h : ∀ item ∈ items, AreLegible (lexemes item)) : AreLegible (items.flatMap lexemes) := by
  intro lexeme hlexeme
  obtain ⟨item, hitem, hmem⟩ := List.mem_flatMap.mp hlexeme
  exact h item hitem lexeme hmem

/-- What spells a lexeme starts with a character that starts no comment. -/
theorem Spells.exists_cons {spelled : List Char} {lexeme : Lexeme} (h : Spells spelled lexeme) :
    ∃ c cs, spelled = c :: cs ∧ c ≠ ';' := by
  cases h with
  | opening => exact ⟨'(', [], rfl, by decide⟩
  | closing => exact ⟨')', [], rfl, by decide⟩
  | word hword _ => exact ⟨_, _, rfl, (ne_of_isIdChar (hword _ List.mem_cons_self)).2.1⟩
  | string _ => exact ⟨'"', _, rfl, by decide⟩

/-- Nothing is put behind an opening parenthesis and before a closing one, and a space elsewhere. -/
theorem separator_cases (first second : Lexeme) :
    separator first second = "" ∧ (first = .opening ∨ second = .closing) ∨
      separator first second = " " := by
  unfold separator
  split
  · exact .inl ⟨rfl, .inl rfl⟩
  · exact .inl ⟨rfl, .inr rfl⟩
  · exact .inr rfl

/-- Lexemes on one line start with the spelling of the first one. -/
theorem exists_spaced_cons (first : Lexeme) (others : List Lexeme) :
    ∃ tail, (spaced (first :: others)).toList = first.spelling.toList ++ tail := by
  cases others with
  | nil => exact ⟨[], by simp [spaced]⟩
  | cons second others =>
    exact ⟨_, by rw [spaced, String.toList_append, String.toList_append, List.append_assoc]⟩

/-- A lexeme is told from what stands behind it on its line. -/
theorem mayPrecede_of_spaced {first second : Lexeme} (hsecond : second.IsLegible)
    (others : List Lexeme) (rest : List Char) :
    MayPrecede first ((separator first second).toList ++
      ((spaced (second :: others)).toList ++ rest)) := by
  obtain ⟨tail, htail⟩ := exists_spaced_cons second others
  rw [htail]
  rcases separator_cases first second with ⟨hnone, rfl | rfl⟩ | hspace
  · obtain ⟨c, cs, hspelled, hc⟩ := hsecond.exists_cons
    rw [hnone, hspelled]
    exact fun hhead ↦ hc (Option.some.inj hhead)
  · rw [hnone]
    refine IsParted.mayPrecede (fun c hc ↦ ?_) first
    cases hc
    decide
  · rw [hspace]
    refine IsParted.mayPrecede (fun c hc ↦ ?_) first
    cases hc
    decide

/-- Lexemes on one line, with spaces where they are needed, are laid out. -/
theorem laysOut_spaced {lexemes : List Lexeme} (h : AreLegible lexemes) :
    LaysOut lexemes (spaced lexemes).toList := by
  intro more rest hmore hrest
  induction lexemes with
  | nil => exact hmore
  | cons first others ih =>
    have hfirst : first.IsLegible := h first List.mem_cons_self
    cases others with
    | nil => exact .lexeme hfirst (hrest.mayPrecede first) hmore
    | cons second others =>
      have hsecond : second.IsLegible := h second (by simp)
      have hothers := ih fun lexeme hlexeme ↦ h lexeme (List.mem_cons_of_mem first hlexeme)
      rw [spaced, String.toList_append, String.toList_append, List.append_assoc, List.append_assoc]
      refine .lexeme hfirst (mayPrecede_of_spaced hsecond others rest) ?_
      rcases separator_cases first second with ⟨hnone, -⟩ | hspace
      · rw [hnone]
        exact hothers
      · rw [hspace]
        exact .gap (by decide) hothers

end Lexeme

/-! ### Legible trees -/

open Lexeme

/-- A word that is read as a reserved word is legible. -/
theorem isLegible_keyword {word : String}
    (hword : ofWord word.toList = .ok (.keyword word))
    (hchars : word.toList.all isIdChar = true) : (Lexeme.keyword word).IsLegible := by
  rw [IsLegible, spelling]
  cases hlist : word.toList with
  | nil =>
    rw [hlist] at hword
    cases hword
  | cons c cs =>
    rw [hlist] at hword hchars
    exact .word (List.all_eq_true.mp hchars) hword

theorem isLegible_valType (ty : ValType) : (Lexeme.keyword ty.keyword).IsLegible := by
  cases ty <;> exact isLegible_keyword rfl (by decide)

theorem isLegible_elemType (ty : ElemType) : (Lexeme.keyword ty.keyword).IsLegible := by
  cases ty <;> exact isLegible_keyword rfl (by decide)

/-- The words that fields and groups start with are legible. -/
theorem isLegible_reserved {word : String} (h : word ∈ ["module", "type", "global", "table",
      "memory", "func", "param", "result", "mut", "shared"]) :
    (Lexeme.keyword word).IsLegible := by
  simp only [List.mem_cons, List.not_mem_nil, or_false] at h
  rcases h with rfl | rfl | rfl | rfl | rfl | rfl | rfl | rfl | rfl | rfl <;>
    exact isLegible_keyword rfl (by decide)

theorem isLegible_declaration (declaration : Declaration) :
    (Lexeme.keyword declaration.keyword).IsLegible := by
  cases declaration <;> exact isLegible_reserved (by simp [Declaration.keyword])

/-- The numeral of an unsigned integer of 32 bits is legible. -/
theorem isLegible_unsigned32 {value : Int} (h : IsUnsigned32 value) :
    (Lexeme.integer (toString value)).IsLegible := by
  obtain ⟨hleast, -⟩ := h
  obtain ⟨magnitude, rfl⟩ := Int.eq_ofNat_of_zero_le hleast
  exact spells_integer magnitude

theorem areLegible_valType (ty : ValType) : AreLegible ty.lexemes :=
  .cons (isLegible_valType ty) areLegible_nil

theorem areLegible_limits {limits : Limits} (h : limits.WellFormed) :
    AreLegible limits.lexemes := by
  obtain ⟨least, greatest⟩ := limits
  obtain ⟨hleast, hgreatest⟩ := h
  refine .cons (isLegible_unsigned32 hleast) ?_
  cases greatest with
  | none => exact areLegible_nil
  | some most => exact .cons (isLegible_unsigned32 (hgreatest most rfl)) areLegible_nil

theorem areLegible_globalType (ty : GlobalType) : AreLegible ty.lexemes := by
  rw [GlobalType.lexemes]
  split
  · exact .parenthesised (.cons (isLegible_reserved (by simp)) (areLegible_valType ty.ty))
  · exact areLegible_valType ty.ty

theorem areLegible_tableType {ty : TableType} (h : ty.limits.WellFormed) :
    AreLegible ty.lexemes :=
  (areLegible_limits h).append (.cons (isLegible_elemType ty.elem) areLegible_nil)

theorem areLegible_memoryType {ty : MemoryType} (h : ty.limits.WellFormed) :
    AreLegible ty.lexemes := by
  refine (areLegible_limits h).append ?_
  split
  · exact .cons (isLegible_reserved (by simp)) areLegible_nil
  · exact areLegible_nil

theorem areLegible_id {id : Option Id} (h : ∀ found ∈ id, found.WellFormed) :
    AreLegible (Id.optionalLexemes id) := by
  cases id with
  | none => exact areLegible_nil
  | some id => exact .cons (spells_id (h id rfl)) areLegible_nil

theorem areLegible_displayName (name : Option DisplayName) :
    AreLegible (DisplayName.optionalLexemes name) := by
  cases name with
  | none => exact areLegible_nil
  | some name =>
    have hhead : (Lexeme.annotationHead "name").IsLegible :=
      Spells.word (List.all_eq_true.mp (by decide)) rfl
    exact .parenthesised (.cons hhead (.cons (spells_string name.name) areLegible_nil))

theorem areLegible_index {index : Index} (h : index.WellFormed) : AreLegible index.lexemes := by
  obtain ⟨reference, span⟩ := index
  cases reference with
  | number value => exact .cons (isLegible_unsigned32 h) areLegible_nil
  | symbol name => exact .cons (spells_id h) areLegible_nil

theorem areLegible_group {group : SignatureGroup}
    (h : ∀ param ∈ group.params, param.WellFormed) : AreLegible group.lexemes := by
  have htypes (types : List ValType) : AreLegible (types.flatMap ValType.lexemes) :=
    areLegible_flatMap fun ty _ ↦ areLegible_valType ty
  cases group with
  | anonymous types =>
    exact .parenthesised (.cons (isLegible_reserved (by simp)) (htypes types))
  | results types =>
    exact .parenthesised (.cons (isLegible_reserved (by simp)) (htypes types))
  | named param =>
    have hid := areLegible_id (h param List.mem_cons_self)
    exact .parenthesised (((hid.cons (isLegible_reserved (by simp))).append
      (areLegible_displayName param.name)).append (areLegible_valType param.ty))

theorem areLegible_signature {ty : FunctionType} (h : ty.WellFormed) : AreLegible ty.lexemes := by
  refine areLegible_flatMap fun group hgroup ↦ areLegible_group fun param hparam ↦ h param ?_
  rw [← ty.ofGroups_groups]
  exact List.mem_flatMap.mpr ⟨group, hgroup, hparam⟩

theorem areLegible_typeUse {use : TypeUse} (h : use.WellFormed) : AreLegible use.lexemes := by
  obtain ⟨index, func⟩ := use
  obtain ⟨hindex, hfunc⟩ := h
  refine .append ?_ (areLegible_signature hfunc)
  cases index with
  | none => exact areLegible_nil
  | some index =>
    exact .parenthesised (.cons (isLegible_reserved (by simp))
      (areLegible_index (hindex index rfl)))

theorem areLegible_declared {declaration : Declaration} (h : declaration.WellFormed) :
    AreLegible declaration.lexemes := by
  cases declaration with
  | type func =>
    exact .parenthesised (.cons (isLegible_reserved (by simp)) (areLegible_signature h))
  | global ty => exact areLegible_globalType ty
  | table ty => exact areLegible_tableType h
  | memory ty => exact areLegible_memoryType h
  | func use => exact areLegible_typeUse h

/-- The lexemes of a field that can be written are legible. -/
theorem areLegible_field {field : Field} (h : field.WellFormed) : AreLegible field.lexemes := by
  have hid := areLegible_id h.1
  exact .parenthesised ((hid.cons (isLegible_declaration field.declaration)).append
    (areLegible_declared h.2))

/-! ### Canonical text -/

/-- A module as lexemes. -/
def TypeModule.lexemes (m : TypeModule) : List Lexeme :=
  match m.id with
  | none => m.fields.flatMap Field.lexemes
  | some id =>
    parenthesised (.keyword "module" :: id.lexemes ++ m.fields.flatMap Field.lexemes)

/-- Assumes: blanks as the indent. The canonical text of a module that can be written lays out its
lexemes. -/
theorem layout_canonicalText {m : TypeModule} (h : m.WellFormed) {indent : String}
    (hindent : ∀ c ∈ indent.toList, isGapChar c = true) :
    Layout m.lexemes (m.canonicalText indent).toList := by
  obtain ⟨id, fields, span⟩ := m
  obtain ⟨hid, hfields⟩ := h
  have hline (field : Field) (hfield : field ∈ fields) :
      LaysOut field.lexemes (spaced field.lexemes).toList :=
    laysOut_spaced (areLegible_field (hfields field hfield))
  cases id with
  | none =>
    have hlines := laysOut_intercalate fields Field.lexemes _ hline
    simpa [TypeModule.lexemes, TypeModule.canonicalText] using (hlines.line laysOut_nil).layout
  | some id =>
    let header : List Lexeme := .opening :: .keyword "module" :: id.lexemes
    have hheader : LaysOut header (spaced header).toList := laysOut_spaced
      (.cons .opening (.cons (isLegible_reserved (by simp)) (areLegible_id hid)))
    have hlines := laysOut_intercalate
      ((header, spaced header) ::
        fields.map fun field ↦ (field.lexemes, indent ++ spaced field.lexemes))
      Prod.fst Prod.snd fun item hitem ↦ by
        rcases List.mem_cons.mp hitem with rfl | hmem
        · exact hheader
        · obtain ⟨field, hfield, rfl⟩ := List.mem_map.mp hmem
          rw [String.toList_append]
          exact (hline field hfield).indented hindent
    have hend : Layout [.closing] [')', '\n'] := .lexeme .closing trivial (.gap (by decide) .nil)
    have hparted : IsParted [')', '\n'] := fun c hc ↦ by
      cases hc
      decide
    have hlayout := hlines hend hparted
    simpa [TypeModule.lexemes, TypeModule.canonicalText, header, Lexeme.parenthesised,
      List.flatMap_map, Function.comp_def] using hlayout

end WatTypes
