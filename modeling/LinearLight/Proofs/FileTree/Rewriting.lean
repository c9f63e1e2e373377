import LinearLight.Proofs.FileTree.Following

/-!
# A file rewritten in its place, and a file made where there was none

A file that is changed where it is stays the file that all its names stand for, and is what all
paths to it lead to. A file made in a place where there was nothing is what paths to that place lead
to from now on. Neither makes another path lead anywhere else.

## Main definitions

- `FileTree.read?`: the file that a path leads to
- `FileTree.Rewritten`: one file holds something else, and all else is as it was
- `FileTree.Made`: one file is new, and all else is as it was

## Main statements

- `FileTree.follow_modifyFile_iff`: paths lead where they led, whatever is done to a file
- `FileTree.rewritten_modifyFile`, `FileTree.made_place`
-/

namespace LinearLight.FileTree

variable {t after : FileTree} {creating : Bool} {id : NodeId}

/-- The file that a path leads to, links at its end followed. -/
def read? (t : FileTree) (p : Path) : Option File :=
  match t.follow false p with
  | .ok (.node id) => t.file? id
  | _ => none

/-- One file holds something else than before. All its names stand for it and all paths that led to
it lead to it, and no other node, no entry and no path is changed. -/
structure Rewritten (t after : FileTree) (id : NodeId) (old new : File) : Prop where
  before : t.file? id = some old
  now : after.file? id = some new
  named : ∀ d name, t.entry? d name = some id → after.fileAt? (d, name) = some new
  path : ∀ q, t.follow false q = .ok (.node id) → after.read? q = some new
  others : ∀ other, other ≠ id → after.node? other = t.node? other
  entry : ∀ d name, after.entry? d name = t.entry? d name
  follow : ∀ creating q target,
    after.follow creating q = .ok target ↔ t.follow creating q = .ok target
  root : after.root = t.root
  current : after.current = t.current
  currentPath : after.currentPath = t.currentPath

/-- One file is new, under a name that stood for nothing. All paths that led to the place where it
is made lead to it, and no other path leads anywhere else than before. -/
structure Made (t after : FileTree) (d : NodeId) (name : Name) (f : File) : Prop where
  unused : t.entry? d name = none
  replaced : t.Replaced after d name f
  path : ∀ q, t.follow true q = .ok (.absent d name) → after.read? q = some f
  follow : ∀ creating q target, target ≠ .absent d name → t.follow creating q = .ok target →
    after.follow creating q = .ok target

theorem read?_eq_some_iff {p : Path} {f : File} :
    t.read? p = some f ↔ ∃ id, t.follow false p = .ok (.node id) ∧ t.file? id = some f := by
  unfold read?
  split
  · next id hid => simp [hid]
  · next hnone =>
    simp only [reduceCtorEq, false_iff]
    rintro ⟨id, hid, -⟩
    exact hnone id hid

/-- A path leads where it led, if a place where nothing was is as it was. -/
theorem Target.becomes_self {target : Target}
    (h : ∀ d name, target = .absent d name → after.entry? d name = none) :
    target.Becomes after creating target := by
  cases target with
  | node id => exact .node
  | absent d name => exact .absent (h d name rfl)

/-! ### A file changed where it is -/

section ModifyFile

variable (id) (change : File → File)

theorem node?_modifyFile_eq_link_iff {other : NodeId} {target : Path} :
    (t.modifyFile id change).node? other = some (.link target) ↔
      t.node? other = some (.link target) := by
  by_cases h : other = id
  · subst h
    rw [modifyFile, node?_modify, if_pos rfl]
    rcases t.node? other with _ | _ | _ | _ | _ <;> simp
  · rw [node?_modifyFile_of_ne id other change h]

theorem extends_modifyFile : t.Extends (t.modifyFile id change) where
  root := rfl
  current := rfl
  directory d parent entries h := ⟨entries, by rwa [directory?_modifyFile]⟩
  entry d name other h := by rwa [entry?_modifyFile]
  link other target _ := node?_modifyFile_eq_link_iff id change

theorem modifyFile_extends : (t.modifyFile id change).Extends t where
  root := rfl
  current := rfl
  directory d parent entries h := ⟨entries, by rwa [directory?_modifyFile] at h⟩
  entry d name other h := by rwa [entry?_modifyFile] at h
  link other target _ := (node?_modifyFile_eq_link_iff id change).symm

/-- Paths lead where they led, whatever is done to a file. -/
theorem follow_modifyFile_iff {t : Sound} {q : Path} {target : Target} :
    (t.modifyFile id change).follow creating q = .ok target ↔
      t.follow creating q = .ok target := by
  constructor
  · intro h
    refine follow_extend (t := t.fileModified id change) (modifyFile_extends id change) h
      (Target.becomes_self ?_)
    rintro d name rfl
    have hnone := entry?_of_follow h
    rwa [entry?_modifyFile] at hnone
  · intro h
    refine follow_extend (extends_modifyFile id change) h (Target.becomes_self ?_)
    rintro d name rfl
    rw [entry?_modifyFile]
    exact entry?_of_follow h

theorem rewritten_modifyFile {t : Sound} {old : File} (h : t.file? id = some old) :
    t.Rewritten (t.modifyFile id change) id old (change old) := by
  have hnow : (t.modifyFile id change).file? id = some (change old) := by simp [h]
  refine
    { before := h
      now := hnow
      named := fun d name hid => fileAt?_eq_some.mpr ⟨id, by rwa [entry?_modifyFile], hnow⟩
      path := fun q hq => ?_
      others := fun other hother => node?_modifyFile_of_ne id other change hother
      entry := fun d name => entry?_modifyFile id d change name
      follow := fun creating q target => follow_modifyFile_iff id change
      root := rfl
      current := rfl
      currentPath := rfl }
  exact read?_eq_some_iff.mpr ⟨id, (follow_modifyFile_iff id change).mpr hq, hnow⟩

/-- Two changes to one file are one. -/
theorem modifyFile_modifyFile (change' : File → File) :
    (t.modifyFile id change).modifyFile id change' =
      t.modifyFile id fun f => change' (change f) := by
  simp only [modifyFile, modify, List.map_map]
  congr 1
  refine List.map_congr_left fun entry _ => ?_
  by_cases h : entry.1 = id
  · cases hnode : entry.2 <;> simp [h, hnode]
  · simp [h]

end ModifyFile

/-! ### A file made where there was none -/

theorem made_place {t : Sound} {d : NodeId} {name : Name} (hd : t.isDirectory d)
    (hunused : t.entry? d name = none) (f : File) :
    t.Made (t.place d name (.file f)) d name f := by
  have hreplaced := replaced_place_of_unused hd hunused f
  have hextends : t.Extends (t.place d name (.file f)) :=
    hreplaced.others.toExtends fun d' name' ⟨hd', hname'⟩ => hd' ▸ hname' ▸ hunused
  obtain ⟨id, -, hid, hfile⟩ := hreplaced.file
  refine ⟨hunused, hreplaced, fun q hq => ?_, fun creating q target hne hq => ?_⟩
  · have hq' := follow_extend hextends hq (.made rfl hid hfile)
    exact read?_eq_some_iff.mpr ⟨id, follow_not_creating hq', hfile⟩
  · refine follow_extend hextends hq (Target.becomes_self ?_)
    rintro d' name' rfl
    have hother : ¬ (d' = d ∧ name' = name) := by
      rintro ⟨rfl, rfl⟩
      exact hne rfl
    rw [hreplaced.others.entry d' name' hother]
    exact entry?_of_follow hq

end LinearLight.FileTree
