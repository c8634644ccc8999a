import Mathlib.Data.List.Nodup
import WatTypes.CommandLine.Run

/-!
# Each source is a file of its own

In a well-formed tree no location occurs twice, and no name is empty or means a step to another
place (`FileTree.WellFormed`). Trees stay so when files are added or written. Hence the sources
below a directory, as far as their paths lead anywhere, lead to different files
(`nodup_find?_sources`).
-/

set_option autoImplicit false
set_option relaxedAutoImplicit false

namespace WatTypes.FileTree

/-! ### Well-formed trees -/

/-- A name that leads one step down. -/
def IsProper (name : String) : Prop := name ≠ "" ∧ name ≠ "." ∧ name ≠ ".."

instance (name : String) : Decidable (IsProper name) := inferInstanceAs (Decidable (_ ∧ _))

/-- A tree in which each location occurs once, by names that lead down. -/
structure WellFormed (tree : FileTree) : Prop where
  /-- Each location occurs once. -/
  nodup : (tree.entries.map Prod.fst).Nodup
  /-- Its names lead down. -/
  proper : ∀ location ∈ tree.entries.map Prod.fst, ∀ name ∈ location, IsProper name

theorem mem_wayTo {location place : Location} : place ∈ wayTo location ↔ place <+: location := by
  induction location generalizing place with
  | nil => simp [wayTo]
  | cons name names ih =>
    rw [wayTo, List.mem_cons, List.prefix_cons_iff]
    simp only [List.mem_map, ih]
    constructor
    · rintro (rfl | ⟨rest, hrest, rfl⟩)
      · exact .inl rfl
      · exact .inr ⟨rest, rfl, hrest⟩
    · rintro (rfl | ⟨rest, rfl, hrest⟩)
      · exact .inl rfl
      · exact .inr ⟨rest, hrest, rfl⟩

theorem nodup_wayTo (location : Location) : (wayTo location).Nodup := by
  induction location with
  | nil => simp [wayTo]
  | cons name names ih =>
    rw [wayTo, List.nodup_cons]
    refine ⟨by simp, ih.map fun _ _ h ↦ (List.cons.inj h).2⟩

/-- The way to a location ends there. -/
theorem exists_wayTo_eq (location : Location) :
    ∃ before, wayTo location = before ++ [location] := by
  induction location with
  | nil => exact ⟨[], rfl⟩
  | cons name names ih =>
    obtain ⟨before, hbefore⟩ := ih
    exact ⟨[] :: before.map (name :: ·), by simp [wayTo, hbefore]⟩

section

variable {tree : FileTree} {location place : Location}

/-- Where there is nothing, no entry stands. -/
theorem notMem_of_hasNode (h : tree.hasNode place = false) :
    place ∉ tree.entries.map Prod.fst := by
  intro hmem
  obtain ⟨entry, hentry, rfl⟩ := List.mem_map.mp hmem
  have hlookup : (tree.entries.lookup entry.1).isSome = true :=
    List.lookup_isSome_iff.mpr ⟨entry, hentry, beq_self_eq_true _⟩
  unfold hasNode node? at h
  split at h
  · cases h
  · rw [hlookup] at h
    cases h

/-- The directories that are missing on the way to a location are above it, and missing. -/
theorem of_mem_missing
    (h : place ∈ ((wayTo location).drop 1).dropLast.filter fun place ↦ !tree.hasNode place) :
    place <+: location ∧ place ≠ location ∧ place ∉ tree.entries.map Prod.fst := by
  obtain ⟨hway, hnode⟩ := List.mem_filter.mp h
  obtain ⟨before, hbefore⟩ := exists_wayTo_eq location
  rw [List.drop_one, ← List.tail_dropLast] at hway
  have hfront : place ∈ before := by
    rw [hbefore, List.dropLast_concat] at hway
    exact List.mem_of_mem_tail hway
  refine ⟨mem_wayTo.mp (hbefore ▸ List.mem_append_left _ hfront), ?_,
    notMem_of_hasNode (by simpa using hnode)⟩
  rintro rfl
  have hnodup := nodup_wayTo place
  rw [hbefore] at hnodup
  exact (List.nodup_append.mp hnodup).2.2 place hfront place List.mem_cons_self rfl

theorem isProper_of_prefix (hplace : place <+: location) (h : ∀ name ∈ location, IsProper name) :
    ∀ name ∈ place, IsProper name := fun name hname ↦ h name (hplace.subset hname)

/-- A tree stays well formed when a file or a directory is added. -/
theorem WellFormed.add (h : tree.WellFormed) (hlocation : ∀ name ∈ location, IsProper name)
    (node : FileNode) : (tree.add location node).WellFormed := by
  let missing := ((wayTo location).drop 1).dropLast.filter fun place ↦ !tree.hasNode place
  have hmissing : missing.Nodup :=
    (((nodup_wayTo location).sublist (List.drop_sublist 1 _)).sublist
      (List.dropLast_sublist _)).filter _
  have hplaces : (tree.add location node).entries.map Prod.fst =
      missing ++ if tree.hasNode location then tree.entries.map Prod.fst
        else tree.entries.map Prod.fst ++ [location] := by
    simp only [FileTree.add, List.map_append, List.map_map]
    split <;> simp [missing, Function.comp_def]
  refine ⟨?_, fun place hplace ↦ ?_⟩
  · rw [hplaces, List.nodup_append]
    cases hnode : tree.hasNode location with
    | true =>
      refine ⟨hmissing, h.nodup, fun place hplace other hother ↦ ?_⟩
      rintro rfl
      exact (of_mem_missing hplace).2.2 hother
    | false =>
      refine ⟨hmissing, List.nodup_append.mpr ⟨h.nodup, List.nodup_singleton _, ?_⟩, ?_⟩
      · rintro place hplace other hother rfl
        rw [List.mem_singleton.mp hother] at hplace
        exact notMem_of_hasNode hnode hplace
      · rintro place hplace other hother rfl
        obtain ⟨-, hne, hnot⟩ := of_mem_missing hplace
        rcases List.mem_append.mp hother with hold | hnew
        · exact hnot hold
        · exact hne (List.mem_singleton.mp hnew)
  · rw [hplaces] at hplace
    rcases List.mem_append.mp hplace with hfirst | hsecond
    · exact isProper_of_prefix (of_mem_missing hfirst).1 hlocation
    · split at hsecond
      · exact h.proper place hsecond
      · rcases List.mem_append.mp hsecond with hold | hnew
        · exact h.proper place hold
        · rw [List.mem_singleton.mp hnew]
          exact hlocation

/-- A tree stays well formed when a file is written. -/
theorem WellFormed.write (h : tree.WellFormed) (content : ByteArray) :
    (tree.write location content).WellFormed := by
  have hplaces : (tree.write location content).entries.map Prod.fst =
      tree.entries.map Prod.fst := by
    rw [FileTree.write, List.map_map]
    rfl
  exact ⟨hplaces ▸ h.nodup, hplaces ▸ h.proper⟩

/-! ### Paths -/

/-- To follow names is to follow some of them and then the others. -/
theorem follow_append (here : Location) (names more : List String) :
    tree.follow here (names ++ more) =
      (tree.follow here names).bind fun there ↦ tree.follow there more := by
  induction names generalizing here with
  | nil =>
    rw [List.nil_append, follow]
    cases hnode : tree.hasNode here with
    | true => rfl
    | false =>
      cases more with
      | nil => simp [follow, hnode]
      | cons name more =>
        have hdirectory : tree.isDirectory here = false := by
          unfold hasNode at hnode
          unfold isDirectory
          cases hhere : tree.node? here with
          | none => rfl
          | some node =>
            rw [hhere] at hnode
            cases hnode
        simp [follow, hdirectory]
  | cons name names ih =>
    simp only [List.cons_append, follow, ih]
    split
    · split
      · rfl
      split <;> rfl
    · rfl

/-- Proper names lead straight down. -/
theorem eq_append_of_follow {here there : Location} {names : List String}
    (hnames : ∀ name ∈ names, IsProper name) (h : tree.follow here names = some there) :
    there = here ++ names := by
  induction names generalizing here with
  | nil =>
    rw [follow] at h
    split at h
    · cases h
      rw [List.append_nil]
    · cases h
  | cons name names ih =>
    obtain ⟨⟨hempty, hdot, hup⟩, hothers⟩ := List.forall_mem_cons.mp hnames
    rw [follow] at h
    split at h
    · simp only [hempty, hdot, or_self, if_false] at h
      rw [ih hothers h, List.append_assoc]
      rfl
    · cases h

/-- The names that lead down from a location to a place lead from the one to the other. -/
theorem eq_append_of_below? {here place : Location} {names : List String}
    (h : below? here place = some names) : place = here ++ names := by
  fun_induction below? here place with
  | case1 => cases h; rfl
  | case2 first here rest ih => rw [ih h]; rfl
  | case3 => cases h
  | case4 => cases h

/-- What is below a location is found at a location. -/
theorem mem_walk {names : List String} (h : names ∈ tree.walk location) :
    location ++ names ∈ tree.entries.map Prod.fst := by
  rw [walk, List.mem_mergeSort] at h
  obtain ⟨⟨place, node⟩, hentry, hbelow⟩ := List.mem_filterMap.mp (List.mem_of_mem_filter h)
  exact List.mem_map.mpr ⟨_, hentry, eq_append_of_below? hbelow⟩

/-- What is below a location is found once. -/
theorem nodup_walk (h : tree.WellFormed) : (tree.walk location).Nodup := by
  rw [walk, (List.mergeSort_perm _ _).nodup_iff]
  refine List.Nodup.filter _ ?_
  have hplaces : ((tree.entries.map Prod.fst).filterMap (below? location)).Nodup := by
    refine h.nodup.filterMap fun place other names hplace hother ↦ ?_
    rw [eq_append_of_below? hplace, eq_append_of_below? hother]
  rw [List.filterMap_map] at hplaces
  exact hplaces

/-- Assumes: a well-formed tree, and sources whose paths lead somewhere. They lead to different
places. -/
theorem nodup_find?_sources (h : tree.WellFormed) {path : Path}
    (hfound : ∀ file ∈ tree.sources path, (tree.find? file).isSome = true) :
    ((tree.sources path).map tree.find?).Nodup := by
  unfold sources at hfound ⊢
  cases hpath : tree.find? path with
  | none => exact List.nodup_singleton _
  | some location =>
    simp only [hpath] at hfound ⊢
    split
    · rename_i hdirectory
      rw [if_pos hdirectory] at hfound
      have hplace (names : List String)
          (hnames : names ∈
            (tree.walk location).filter fun names ↦ names.getLast?.any isSourceName) :
          tree.find? (path.append names) = some (location ++ names) := by
        obtain ⟨there, hthere⟩ := Option.isSome_iff_exists.mp
          (hfound _ (List.mem_map_of_mem hnames))
        have hproper : ∀ name ∈ names, IsProper name := fun name hname ↦
          h.proper _ (mem_walk (List.mem_of_mem_filter hnames)) name
            (List.mem_append_right location hname)
        have hfollow : tree.follow location names = some there := by
          rw [find?, Path.append, follow_append] at hthere
          rw [find?] at hpath
          rw [hpath] at hthere
          exact hthere
        rw [hthere, eq_append_of_follow hproper hfollow]
      rw [List.map_map]
      refine List.Nodup.map_on (fun names hnames others hothers hsame ↦ ?_)
        ((nodup_walk h).filter _)
      simp only [Function.comp_apply, hplace names hnames, hplace others hothers] at hsame
      exact List.append_cancel_left (Option.some.inj hsame)
    · exact List.nodup_singleton _

end

end WatTypes.FileTree
