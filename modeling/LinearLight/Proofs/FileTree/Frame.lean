import LinearLight.Proofs.FileTree.WellFormed

/-!
# What a change leaves alone

Two trees that are the same except for some entries: every other name stands for what it stood for,
no directory is gone, and no file or link is modified, whatever names it has. What changes one
file that the first tree does not have keeps them so.

## Main definitions

- `FileTree.SameExcept`: nothing has changed but some entries
- `FileTree.fileAt?`: the file that a name stands for in a directory
- `FileTree.Replaced`: one entry now names a new file, and all else is as it was

## Main statements

- `FileTree.SameExcept.place`, `FileTree.SameExcept.modifyFile`, `FileTree.SameExcept.setEntry`,
  `FileTree.SameExcept.removeEntry`, `FileTree.SameExcept.remove`
- `FileTree.replaced_place`: what a new file under a name does to a tree
-/

namespace LinearLight.FileTree

/-- The tree after some calls differs from the tree before them at most in some entries. None of
them was a name of a directory, and those that are new are names of files. -/
structure SameExcept (t after : FileTree) (changed : NodeId → Name → Prop) : Prop where
  entry : ∀ d name, ¬ changed d name → after.entry? d name = t.entry? d name
  subdirectory : ∀ d name id, t.entry? d name = some id → t.isDirectory id →
    after.entry? d name = some id
  file : ∀ d name id, after.entry? d name = some id →
    t.entry? d name = some id ∨ (after.file? id).isSome
  node : ∀ id node, t.node? id = some node → node.isDirectory = false →
    after.node? id = some node
  directory : ∀ d parent entries, t.directory? d = some (parent, entries) →
    ∃ entries', after.directory? d = some (parent, entries')
  root : after.root = t.root
  current : after.current = t.current
  currentPath : after.currentPath = t.currentPath

/-- The file that a name stands for in a directory. -/
def fileAt? (t : FileTree) (entry : NodeId × Name) : Option File :=
  (t.entry? entry.1 entry.2).bind t.file?

/-- One entry names a file that was not there before, and all else is as it was. -/
structure Replaced (t after : FileTree) (d : NodeId) (name : Name) (f : File) : Prop where
  isDirectory : t.isDirectory d
  file : ∃ id, t.node? id = none ∧ after.entry? d name = some id ∧ after.file? id = some f
  others : t.SameExcept after fun d' name' => d' = d ∧ name' = name

variable {t now after : FileTree}

theorem fileAt?_eq_some {entry : NodeId × Name} {f : File} :
    t.fileAt? entry = some f ↔ ∃ id, t.entry? entry.1 entry.2 = some id ∧ t.file? id = some f :=
  Option.bind_eq_some_iff

theorem fileAt?_congr {entry : NodeId × Name}
    (hentry : after.entry? entry.1 entry.2 = t.entry? entry.1 entry.2)
    (hfile : ∀ id, t.entry? entry.1 entry.2 = some id → after.file? id = t.file? id) :
    after.fileAt? entry = t.fileAt? entry := by
  rw [FileTree.fileAt?, FileTree.fileAt?, hentry]
  exact Option.bind_congr hfile

theorem Replaced.fileAt? {d : NodeId} {name : Name} {f : File} (h : t.Replaced after d name f) :
    after.fileAt? (d, name) = some f := by
  obtain ⟨id, _, hentry, hfile⟩ := h.file
  exact fileAt?_eq_some.mpr ⟨id, hentry, hfile⟩

theorem file?_eq_none_of_isDirectory {id : NodeId} (h : t.isDirectory id) : t.file? id = none := by
  obtain ⟨parent, entries, hentries⟩ := isDirectory_iff.mp h
  rw [file?, directory?_eq_some.mp hentries]

theorem isDirectory_of_file? {id : NodeId} {f : File} (h : t.file? id = some f) :
    t.isDirectory id = false :=
  isDirectory_of_node? (file?_eq_some.mp h)

namespace SameExcept

variable {changed changed' : NodeId → Name → Prop}

theorem refl (t : FileTree) (changed : NodeId → Name → Prop) : t.SameExcept t changed :=
  ⟨fun _ _ _ => rfl, fun _ _ _ h _ => h, fun _ _ _ h => .inl h, fun _ _ h _ => h,
    fun _ _ entries h => ⟨entries, h⟩, rfl, rfl, rfl⟩

theorem mono (h : t.SameExcept after changed) (hsub : ∀ d name, changed d name → changed' d name) :
    t.SameExcept after changed' :=
  { h with entry := fun d name hnot => h.entry d name fun hc => hnot (hsub d name hc) }

theorem file?_eq_some (h : t.SameExcept after changed) {id : NodeId} {f : File}
    (hf : t.file? id = some f) : after.file? id = some f :=
  FileTree.file?_eq_some.mpr (h.node id (.file f) (FileTree.file?_eq_some.mp hf) rfl)

theorem isDirectory (h : t.SameExcept after changed) {d : NodeId} (hd : t.isDirectory d) :
    after.isDirectory d := by
  obtain ⟨parent, entries, hentries⟩ := isDirectory_iff.mp hd
  obtain ⟨entries', hentries'⟩ := h.directory d parent entries hentries
  exact isDirectory_iff.mpr ⟨parent, entries', hentries'⟩

theorem trans (h : t.SameExcept now changed) (h' : now.SameExcept after changed') :
    t.SameExcept after fun d name => changed d name ∨ changed' d name where
  entry d name hnot := by
    rw [h'.entry d name fun hc => hnot (.inr hc), h.entry d name fun hc => hnot (.inl hc)]
  subdirectory d name id hid hdir :=
    h'.subdirectory d name id (h.subdirectory d name id hid hdir) (h.isDirectory hdir)
  file d name id hid := by
    rcases h'.file d name id hid with hid' | hfile
    · rcases h.file d name id hid' with hid'' | hfile'
      · exact .inl hid''
      · obtain ⟨f, hf⟩ := Option.isSome_iff_exists.mp hfile'
        exact .inr (by rw [h'.file?_eq_some hf]; rfl)
    · exact .inr hfile
  node id node hnode hdir := h'.node id node (h.node id node hnode hdir) hdir
  directory d parent entries hd := by
    obtain ⟨entries', hd'⟩ := h.directory d parent entries hd
    exact h'.directory d parent entries' hd'
  root := h'.root.trans h.root
  current := h'.current.trans h.current
  currentPath := h'.currentPath.trans h.currentPath

theorem isDirectory_eq (h : t.SameExcept after changed) {id : NodeId} (hid : (t.node? id).isSome) :
    after.isDirectory id = t.isDirectory id := by
  obtain ⟨node, hnode⟩ := Option.isSome_iff_exists.mp hid
  cases hdir : t.isDirectory id with
  | true => exact h.isDirectory hdir
  | false =>
    have hkind : node.isDirectory = false := by rw [← isDirectory_of_node? hnode, hdir]
    rw [isDirectory_of_node? (h.node id node hnode hkind), hkind]

/-- A node that was there before is what it was; only the entries of a directory may differ. -/
theorem node?_eq (h : t.SameExcept after changed) {id : NodeId} (hid : (t.node? id).isSome)
    (hdir : after.isDirectory id = false) : after.node? id = t.node? id := by
  rw [h.isDirectory_eq hid] at hdir
  obtain ⟨node, hnode⟩ := Option.isSome_iff_exists.mp hid
  rw [hnode, h.node id node hnode (by rw [← isDirectory_of_node? hnode, hdir])]

theorem isSome_node? (h : t.SameExcept after changed) {id : NodeId} {node : Node}
    (hnode : t.node? id = some node) : (after.node? id).isSome := by
  cases hkind : node.isDirectory with
  | true =>
    have hdir := h.isDirectory ((isDirectory_of_node? hnode).trans hkind)
    obtain ⟨parent, entries, hentries⟩ := isDirectory_iff.mp hdir
    simp [directory?_eq_some.mp hentries]
  | false => simp [h.node id node hnode hkind]

/-- A file under a name that has not changed is the same file. -/
theorem fileAt? (h : t.SameExcept after changed) {entry : NodeId × Name} {f : File}
    (hentry : ¬ changed entry.1 entry.2) (hf : t.fileAt? entry = some f) :
    after.fileAt? entry = some f := by
  obtain ⟨id, hid, hfile⟩ := fileAt?_eq_some.mp hf
  exact fileAt?_eq_some.mpr ⟨id, by rw [h.entry _ _ hentry, hid], h.file?_eq_some hfile⟩

end SameExcept

/-- A file that replaces another one under the same entry is all that is left. -/
theorem Replaced.trans {d : NodeId} {name : Name} {f f' : File} (h : t.Replaced now d name f)
    (h' : now.Replaced after d name f') : t.Replaced after d name f' where
  isDirectory := h.isDirectory
  file := by
    obtain ⟨id, hnew, hentry, hfile⟩ := h'.file
    refine ⟨id, ?_, hentry, hfile⟩
    cases hnode : t.node? id with
    | none => rfl
    | some node =>
      have hstill := h.others.isSome_node? hnode
      simp [hnew] at hstill
  others := (h.others.trans h'.others).mono fun _ _ hchanged => hchanged.elim id id

theorem not_and_of_subdirectory {d d' id : NodeId} {name name' : Name}
    (hname : ∀ id, t.entry? d name = some id → t.isDirectory id = false)
    (h : t.entry? d' name' = some id) (hdir : t.isDirectory id) : ¬ (d' = d ∧ name' = name) := by
  rintro ⟨rfl, rfl⟩
  simp [hname id h] at hdir

/-- A new file replaces one entry, which must not be a name of a directory. -/
theorem replaced_place {d : NodeId} {name : Name} (hd : t.isDirectory d)
    (hname : ∀ id, t.entry? d name = some id → t.isDirectory id = false) (f : File) :
    t.Replaced (t.place d name (.file f)) d name f where
  isDirectory := hd
  file := by
    refine ⟨t.fresh, node?_fresh t, ?_, by simp⟩
    rw [entry?_place name hd rfl, if_pos ⟨rfl, rfl⟩]
  others :=
    { entry := fun d' name' hne => by rw [entry?_place name hd rfl, if_neg hne]
      subdirectory := fun d' name' id h hdir => by
        rw [entry?_place name hd rfl, if_neg (not_and_of_subdirectory hname h hdir)]
        exact h
      file := fun d' name' id h => by
        rw [entry?_place name hd rfl] at h
        split at h
        · cases h
          exact .inr (by simp)
        · exact .inl h
      node := fun id node hnode hdir => by
        have hid : t.isDirectory id = false := (isDirectory_of_node? hnode).trans hdir
        rw [node?_place_of_not_directory name rfl hid, if_neg (ne_fresh_of_node? hnode)]
        exact hnode
      directory := fun d' parent entries h => by
        rw [directory?_place name rfl]
        by_cases hd' : d' = d
        · subst d'
          exact ⟨assign name t.fresh entries, by simp [h]⟩
        · exact ⟨entries, by rw [if_neg hd']; exact h⟩
      root := rfl
      current := rfl
      currentPath := rfl }

theorem replaced_place_of_unused {d : NodeId} {name : Name} (hd : t.isDirectory d)
    (hunused : t.entry? d name = none) (f : File) :
    t.Replaced (t.place d name (.file f)) d name f :=
  replaced_place hd (fun id hid => by simp [hunused] at hid) f

theorem sameExcept_setEntry {d id : NodeId} {name : Name} (hd : t.isDirectory d)
    (hname : ∀ old, t.entry? d name = some old → t.isDirectory old = false)
    (hid : (t.file? id).isSome) :
    t.SameExcept (t.setEntry d name id) fun d' name' => d' = d ∧ name' = name where
  entry d' name' hne := by rw [entry?_setEntry hd, if_neg hne]
  subdirectory d' name' id' h hdir := by
    rw [entry?_setEntry hd, if_neg (not_and_of_subdirectory hname h hdir)]
    exact h
  file d' name' id' h := by
    rw [entry?_setEntry hd] at h
    split at h
    · cases h
      exact .inr (by rw [file?_setEntry]; exact hid)
    · exact .inl h
  node id' node hnode hdir := by
    rw [node?_setEntry_of_not_directory ((isDirectory_of_node? hnode).trans hdir)]
    exact hnode
  directory d' parent entries h := by
    rw [directory?_setEntry]
    by_cases hd' : d' = d
    · subst d'
      exact ⟨assign name id entries, by simp [h]⟩
    · exact ⟨entries, by rw [if_neg hd']; exact h⟩
  root := rfl
  current := rfl
  currentPath := rfl

theorem sameExcept_removeEntry {d : NodeId} {name : Name}
    (hname : ∀ id, t.entry? d name = some id → t.isDirectory id = false) :
    t.SameExcept (t.removeEntry d name) fun d' name' => d' = d ∧ name' = name where
  entry d' name' hne := by rw [entry?_removeEntry, if_neg hne]
  subdirectory d' name' id' h hdir := by
    rw [entry?_removeEntry, if_neg (not_and_of_subdirectory hname h hdir)]
    exact h
  file d' name' id' h := by
    rw [entry?_removeEntry] at h
    split at h
    · cases h
    · exact .inl h
  node id' node hnode hdir := by
    rw [node?_removeEntry_of_not_directory ((isDirectory_of_node? hnode).trans hdir)]
    exact hnode
  directory d' parent entries h := by
    rw [directory?_removeEntry]
    by_cases hd' : d' = d
    · subst d'
      exact ⟨entries.filter (·.1 ≠ name), by simp [h]⟩
    · exact ⟨entries, by rw [if_neg hd']; exact h⟩
  root := rfl
  current := rfl
  currentPath := rfl

/-! ### Changes to a file that the first tree does not have -/

namespace SameExcept

variable {changed : NodeId → Name → Prop} {id : NodeId}

theorem modifyFile (h : t.SameExcept now changed) (hid : t.node? id = none) (change : File → File) :
    t.SameExcept (now.modifyFile id change) changed where
  entry d name hnot := by rw [entry?_modifyFile, h.entry d name hnot]
  subdirectory d name other hother hdir := by
    rw [entry?_modifyFile]
    exact h.subdirectory d name other hother hdir
  file d name other hother := by
    rw [entry?_modifyFile] at hother
    refine (h.file d name other hother).imp_right fun hfile => ?_
    rw [file?_modifyFile]
    by_cases he : other = id
    · subst he
      simpa using hfile
    · rwa [if_neg he]
  node other node hnode hdir := by
    have hne : other ≠ id := by
      rintro rfl
      simp [hid] at hnode
    rw [node?_modifyFile_of_ne _ _ _ hne]
    exact h.node other node hnode hdir
  directory d parent entries hd := by
    rw [directory?_modifyFile]
    exact h.directory d parent entries hd
  root := h.root
  current := h.current
  currentPath := h.currentPath

theorem remove (h : t.SameExcept now changed) (hid : t.node? id = none)
    (hunnamed : ∀ d name, now.entry? d name ≠ some id) (hdir : now.isDirectory id = false) :
    t.SameExcept (now.remove id) changed := by
  have hentry := entry?_remove_of_not_directory hdir
  refine ⟨fun d name hnot => ?_, fun d name other hother hsub => ?_, fun d name other hother => ?_,
    fun other node hnode hkind => ?_, fun d parent entries hd => ?_, h.root, h.current,
    h.currentPath⟩
  · rw [hentry, h.entry d name hnot]
  · rw [hentry]
    exact h.subdirectory d name other hother hsub
  · rw [hentry] at hother
    refine (h.file d name other hother).imp_right fun hfile => ?_
    have hne : other ≠ id := fun e => hunnamed d name (e ▸ hother)
    rwa [file?_remove_of_ne hne]
  · have hne : other ≠ id := by
      rintro rfl
      simp [hid] at hnode
    rw [node?_remove, if_neg hne]
    exact h.node other node hnode hkind
  · rw [directory?_remove_of_not_directory hdir]
    exact h.directory d parent entries hd

end SameExcept

end LinearLight.FileTree
