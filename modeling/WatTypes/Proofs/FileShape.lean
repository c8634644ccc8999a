import WatTypes.CommandLine.Run

/-!
# Writing files keeps the shape of a tree

Two file trees have the same shape if they have the same working directory and the same files and
directories, whatever the files hold (`FileTree.SameShape`). Where paths lead, which sources they
stand for, where settings are found and what the arguments of the program ask for depend on the
shape alone. Writing a file keeps the shape (`sameShape_write`), and every other file as it is
(`node?_write_of_ne`).
-/

set_option autoImplicit false
set_option relaxedAutoImplicit false

namespace WatTypes

namespace FileTree

/-! ### Writing -/

theorem lookup_write {location place : Location} {content : ByteArray}
    (entries : List (Location × FileNode)) :
    (entries.map fun (other, node) ↦
        (other, if other = location then FileNode.file content else node)).lookup place =
      (entries.lookup place).map fun node ↦
        if place = location then FileNode.file content else node := by
  induction entries with
  | nil => rfl
  | cons entry entries ih =>
    obtain ⟨other, node⟩ := entry
    simp only [List.map_cons, List.lookup_cons]
    cases hplace : place == other with
    | true => rw [eq_of_beq hplace, Option.map_some]
    | false => exact ih

section

variable {tree other : FileTree} {location place : Location} {content : ByteArray}

theorem node?_write : (tree.write location content).node? place =
    if place = [] then some .directory
    else (tree.node? place).map fun node ↦ if place = location then .file content else node := by
  unfold node?
  split
  · rfl
  · exact lookup_write tree.entries

/-- Writing a file keeps every other one, and the directories. -/
theorem node?_write_of_ne (h : place ≠ location) :
    (tree.write location content).node? place = tree.node? place := by
  by_cases hroot : place = []
  · rw [hroot]
    rfl
  · simp only [node?_write, if_neg hroot, if_neg h, Option.map_id']

theorem node?_of_isFile (h : tree.isFile location = true) :
    ∃ bytes, tree.node? location = some (.file bytes) := by
  unfold isFile at h
  split at h
  · rename_i bytes hnode
    exact ⟨bytes, hnode⟩
  · cases h

theorem isFile_of_bytesAt {bytes : ByteArray} (h : tree.bytesAt location = .ok bytes) :
    tree.isFile location = true := by
  unfold bytesAt at h
  split at h
  · cases h
  · cases h
  · rename_i found hnode
    rw [isFile, hnode]

/-- A file that is written holds what is written. -/
theorem node?_write_self (h : tree.isFile location = true) :
    (tree.write location content).node? location = some (.file content) := by
  obtain ⟨bytes, hnode⟩ := node?_of_isFile h
  have hroot : location ≠ [] := by
    rintro rfl
    cases hnode
  rw [node?_write, if_neg hroot, hnode, Option.map_some, if_pos rfl]

/-! ### The same shape -/

/-- The same files and directories, whatever the files hold. -/
structure SameShape (tree other : FileTree) : Prop where
  /-- The same working directory. -/
  workingDirectory : tree.workingDirectory = other.workingDirectory
  /-- Something at the same locations, in the same order. -/
  places : tree.entries.map Prod.fst = other.entries.map Prod.fst
  /-- The same files. -/
  isFile : ∀ location, tree.isFile location = other.isFile location
  /-- The same directories. -/
  isDirectory : ∀ location, tree.isDirectory location = other.isDirectory location

theorem SameShape.refl (tree : FileTree) : SameShape tree tree :=
  ⟨rfl, rfl, fun _ ↦ rfl, fun _ ↦ rfl⟩

theorem SameShape.trans {third : FileTree} (h : SameShape tree other)
    (hother : SameShape other third) : SameShape tree third where
  workingDirectory := h.workingDirectory.trans hother.workingDirectory
  places := h.places.trans hother.places
  isFile := fun location ↦ (h.isFile location).trans (hother.isFile location)
  isDirectory := fun location ↦ (h.isDirectory location).trans (hother.isDirectory location)

/-- Writing a file keeps the shape of the tree. -/
theorem sameShape_write (h : tree.isFile location = true) :
    SameShape (tree.write location content) tree := by
  have hnode (place : Location) : (tree.write location content).node? place = tree.node? place ∨
      ∃ bytes, tree.node? place = some (.file bytes) ∧
        (tree.write location content).node? place = some (.file content) := by
    by_cases hplace : place = location
    · rw [hplace]
      obtain ⟨bytes, hfile⟩ := node?_of_isFile h
      exact .inr ⟨bytes, hfile, node?_write_self h⟩
    · exact .inl (node?_write_of_ne hplace)
  refine ⟨rfl, ?_, fun place ↦ ?_, fun place ↦ ?_⟩
  · rw [write, List.map_map]
    rfl
  · rcases hnode place with hsame | ⟨bytes, hfile, hwritten⟩
    · rw [isFile, hsame, isFile]
    · rw [isFile, hwritten, isFile, hfile]
  · rcases hnode place with hsame | ⟨bytes, hfile, hwritten⟩
    · rw [isDirectory, hsame, isDirectory]
    · rw [isDirectory, hwritten, isDirectory, hfile]

namespace SameShape

theorem hasNode (h : SameShape tree other) (location : Location) :
    tree.hasNode location = other.hasNode location := by
  have hcases (tree : FileTree) :
      tree.hasNode location = (tree.isFile location || tree.isDirectory location) := by
    unfold FileTree.hasNode FileTree.isFile FileTree.isDirectory
    rcases tree.node? location with _ | ⟨_ | _⟩ <;> rfl
  rw [hcases tree, hcases other, h.isFile, h.isDirectory]

theorem follow (h : SameShape tree other) (here : Location) (names : List String) :
    tree.follow here names = other.follow here names := by
  induction names generalizing here with
  | nil => simp only [FileTree.follow, h.hasNode]
  | cons name names ih => simp only [FileTree.follow, h.isDirectory, ih]

theorem origin (h : SameShape tree other) (isAbsolute : Bool) :
    tree.origin isAbsolute = other.origin isAbsolute := by
  simp only [FileTree.origin, h.workingDirectory]

theorem find? (h : SameShape tree other) (path : Path) : tree.find? path = other.find? path := by
  rw [FileTree.find?, h.origin, h.follow, ← FileTree.find?]

theorem locate (h : SameShape tree other) (text : String) :
    tree.locate text = other.locate text := by
  simp only [FileTree.locate, h.origin, h.follow]

theorem resolve (h : SameShape tree other) (path : Path) :
    tree.resolve path = other.resolve path := by
  simp only [FileTree.resolve, h.origin]

theorem isTooLong (h : SameShape tree other) (location : Location) :
    tree.isTooLong location = other.isTooLong location := by
  have hnames (here : Location) (names : List String) :
      tree.meetsLongName here names = other.meetsLongName here names := by
    induction names generalizing here with
    | nil => rfl
    | cons name names ih => simp only [meetsLongName, h.isDirectory, ih]
  simp only [FileTree.isTooLong, hnames]

theorem walk (h : SameShape tree other) (location : Location) :
    tree.walk location = other.walk location := by
  have hbelow (tree : FileTree) : (tree.entries.filterMap fun (place, _) ↦ below? location place) =
      (tree.entries.map Prod.fst).filterMap (below? location) := by
    rw [List.filterMap_map]
    rfl
  simp only [FileTree.walk, hbelow, h.places]

theorem sources (h : SameShape tree other) (path : Path) :
    tree.sources path = other.sources path := by
  simp only [FileTree.sources, h.find?, h.isDirectory, h.walk]

end SameShape

end

end FileTree

/-! ### What depends on the shape alone -/

section

variable {tree other : FileTree}

theorem FileTree.SameShape.find_settings (h : SameShape tree other) (start : Path) :
    Settings.find tree start = Settings.find other start := by
  have hnodes : tree.hasNode = other.hasNode := funext h.hasNode
  simp only [Settings.find, h.resolve, h.isFile, h.isTooLong, hnodes]

open CommandLine in
/-- The same arguments ask for the same in trees of the same shape. -/
theorem FileTree.SameShape.request (h : SameShape tree other) (arguments : List String) :
    Request.ofArguments tree arguments = Request.ofArguments other arguments := by
  have hoperand : Request.operand tree = Request.operand other := by
    funext command kind given
    simp only [Request.operand, h.locate, h.isDirectory]
  have honly : Request.onlyOperand tree = Request.onlyOperand other := by
    funext command kind others
    simp only [Request.onlyOperand, hoperand]
  have hcommand : Request.ofCommand tree = Request.ofCommand other := by
    funext command others
    simp only [Request.ofCommand, honly]
  simp only [Request.ofArguments, hcommand]

end

end WatTypes
