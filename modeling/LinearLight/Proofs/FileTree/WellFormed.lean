import LinearLight.Proofs.FileTree.Lookup

/-!
# Well-formed trees

A store of nodes is a tree of files only if its directories are where they have to be: no number
stands for two nodes, the root, the current directory and every parent are directories, and every
name stands for a node. A sound tree comes with the proof that it is so, and each change that a call
can make gives a sound tree again.

## Main definitions

- `FileTree.WellFormed`: a store that is a tree of files
- `FileTree.Sound`: a tree with the proof that it is one
- `FileTree.Sound.placed`, `FileTree.Sound.entrySet`, `FileTree.Sound.entryRemoved`,
  `FileTree.Sound.fileModified`, `FileTree.Sound.removed`: the changes
-/

namespace LinearLight.FileTree

/-- A store that is a tree of files. -/
structure WellFormed (t : FileTree) : Prop where
  distinct : (t.nodes.map Prod.fst).Nodup
  root : t.isDirectory t.root
  current : t.isDirectory t.current
  parent : ∀ {d parent entries}, t.directory? d = some (parent, entries) → t.isDirectory parent
  /-- No name stands for a number without a node. -/
  closed : ∀ {d name id}, t.entry? d name = some id → (t.node? id).isSome

/-- A tree of files. -/
structure Sound extends FileTree where
  wellFormed : toFileTree.WellFormed

instance : Coe Sound FileTree := ⟨Sound.toFileTree⟩

variable {t : FileTree}

/-! ### A new node under a name -/

theorem directory?_add {node : Node} (hnode : node.isDirectory = false) (d : NodeId) :
    (t.add node).directory? d = t.directory? d := by
  by_cases h : d = t.fresh
  · subst d
    rw [directory?, directory?, node?_add, node?_fresh]
    cases node <;> simp_all [Node.isDirectory]
  · exact directory?_eq_of_node? (by rw [node?_add, if_neg h])

theorem entry?_add {node : Node} (hnode : node.isDirectory = false) (d : NodeId) (name : Name) :
    entry? (t.add node) d name = t.entry? d name :=
  entry?_eq_of_directory? name (directory?_add hnode d)

section Place

variable {d : NodeId} {node : Node} (name : Name)

theorem isDirectory_place (hnode : node.isDirectory = false) (other : NodeId) :
    (t.place d name node).isDirectory other = t.isDirectory other := by
  rw [place, isDirectory_setEntry, isDirectory, directory?_add hnode, isDirectory]

theorem entry?_place (hd : t.isDirectory d) (hnode : node.isDirectory = false) (other : NodeId)
    (otherName : Name) :
    entry? (t.place d name node) other otherName =
      if other = d ∧ otherName = name then some t.fresh else t.entry? other otherName := by
  have hd' : (t.add node).isDirectory d := by
    rw [isDirectory, directory?_add hnode]
    exact hd
  rw [place, entry?_setEntry hd', entry?_add hnode]

/-- A node that is no directory is placed as it is, and does not disturb the others. -/
theorem node?_place_of_not_directory (hnode : node.isDirectory = false) {id : NodeId}
    (hid : t.isDirectory id = false) :
    (t.place d name node).node? id = if id = t.fresh then some node else t.node? id := by
  have hid' : (t.add node).isDirectory id = false := by
    rw [isDirectory, directory?_add hnode]
    exact hid
  rw [place, node?_setEntry_of_not_directory hid', node?_add]

theorem directory?_place (hnode : node.isDirectory = false) (other : NodeId) :
    (t.place d name node).directory? other =
      if other = d then (t.directory? d).map fun e => (e.1, assign name t.fresh e.2)
      else t.directory? other := by
  rw [place, directory?_setEntry, directory?_add hnode, directory?_add hnode]

@[simp] theorem file?_place (f : File) (id : NodeId) :
    (t.place d name (.file f)).file? id = if id = t.fresh then some f else t.file? id := by
  rw [place, setEntry, file?_modifyEntries]
  unfold file?
  rw [node?_add]
  by_cases h : id = t.fresh <;> simp [h]

end Place

/-! ### What keeps a tree well-formed -/

theorem ids_modify (id : NodeId) (change : Node → Node) :
    (t.modify id change).nodes.map Prod.fst = t.nodes.map Prod.fst := by
  rw [modify, List.map_map]
  refine List.map_congr_left fun entry _ => ?_
  by_cases h : entry.1 = id <;> simp [h]

@[simp] theorem ids_setEntry (d : NodeId) (name : Name) (id : NodeId) :
    (t.setEntry d name id).nodes.map Prod.fst = t.nodes.map Prod.fst :=
  ids_modify d _

@[simp] theorem ids_removeEntry (d : NodeId) (name : Name) :
    (t.removeEntry d name).nodes.map Prod.fst = t.nodes.map Prod.fst :=
  ids_modify d _

@[simp] theorem ids_modifyFile (id : NodeId) (change : File → File) :
    (t.modifyFile id change).nodes.map Prod.fst = t.nodes.map Prod.fst :=
  ids_modify id _

theorem ids_add (node : Node) :
    (t.add node).nodes.map Prod.fst = t.nodes.map Prod.fst ++ [t.fresh] := by
  simp [add]

theorem ids_remove (id : NodeId) :
    (t.remove id).nodes.map Prod.fst = (t.nodes.map Prod.fst).filter (· ≠ id) := by
  rw [remove, List.filter_map]
  rfl

/-- The numbers stay distinct when the next one is given. -/
theorem distinct_add (h : (t.nodes.map Prod.fst).Nodup) (node : Node) :
    ((t.add node).nodes.map Prod.fst).Nodup := by
  rw [ids_add, List.nodup_append]
  refine ⟨h, by simp, ?_⟩
  intro id hid other hother
  obtain ⟨entry, hentry, rfl⟩ := List.mem_map.mp hid
  rw [List.mem_singleton.mp hother]
  exact Nat.ne_of_lt (lt_fresh_of_mem hentry)

/-- A directory is not the next number. -/
theorem ne_fresh_of_isDirectory {d : NodeId} (hd : t.isDirectory d) : d ≠ t.fresh := by
  obtain ⟨parent, entries, hentries⟩ := isDirectory_iff.mp hd
  exact ne_fresh_of_node? (directory?_eq_some.mp hentries)

namespace Sound

variable (t : Sound)

/-- No name stands for the next number. -/
theorem entry?_ne_fresh (d : NodeId) (name : Name) : t.entry? d name ≠ some t.fresh := by
  intro h
  have := t.wellFormed.closed h
  simp at this

/-- A store is well-formed if it has the directories of a tree and all that they name is there. -/
theorem wellFormed_of_directory? {store : FileTree}
    (hdistinct : (store.nodes.map Prod.fst).Nodup) (hroot : store.root = t.root)
    (hcurrent : store.current = t.current)
    (hdirectory : ∀ d, store.directory? d = t.directory? d)
    (hclosed : ∀ {d name id}, t.entry? d name = some id → (store.node? id).isSome) :
    store.WellFormed := by
  have hkind (d : NodeId) : store.isDirectory d = t.isDirectory d := by
    rw [FileTree.isDirectory, hdirectory, FileTree.isDirectory]
  refine ⟨hdistinct, ?_, ?_, fun h => ?_, fun h => ?_⟩
  · rw [hroot, hkind]
    exact t.wellFormed.root
  · rw [hcurrent, hkind]
    exact t.wellFormed.current
  · rw [hdirectory] at h
    rw [hkind]
    exact t.wellFormed.parent h
  · rw [entry?_eq_of_directory? _ (hdirectory _)] at h
    exact hclosed h

/-- A tree with one more node, which is no directory and has no name. -/
def added (node : Node) (hnode : node.isDirectory = false) : Sound where
  toFileTree := t.add node
  wellFormed :=
    t.wellFormed_of_directory? (distinct_add t.wellFormed.distinct node) rfl rfl
      (directory?_add hnode) fun {d name id} h => by
        have hne : id ≠ t.fresh := fun e => t.entry?_ne_fresh d name (e ▸ h)
        rw [node?_add, if_neg hne]
        exact t.wellFormed.closed h

/-- A tree with changed entries in a directory, all of which stand for nodes. -/
def entriesModified (d : NodeId) (change : List (Name × NodeId) → List (Name × NodeId))
    (hclosed : ∀ {other name id}, FileTree.entry? (t.modifyEntries d change) other name = some id →
      (t.node? id).isSome) : Sound where
  toFileTree := t.modifyEntries d change
  wellFormed := by
    have hkind (other : NodeId) := isDirectory_modifyEntries (t := t.toFileTree) d other change
    refine ⟨?_, ?_, ?_, fun {other parent entries} h => ?_, fun h => ?_⟩
    · rw [FileTree.modifyEntries, ids_modify]
      exact t.wellFormed.distinct
    · rw [hkind]
      exact t.wellFormed.root
    · rw [hkind]
      exact t.wellFormed.current
    · rw [hkind]
      rw [directory?_modifyEntries] at h
      by_cases hd : other = d
      · subst other
        rw [if_pos rfl] at h
        obtain ⟨e, he, heq⟩ := Option.map_eq_some_iff.mp h
        simp only [Prod.mk.injEq] at heq
        exact heq.1 ▸ t.wellFormed.parent he
      · rw [if_neg hd] at h
        exact t.wellFormed.parent h
    · rw [isSome_node?_modifyEntries]
      exact hclosed h

/-- A tree in which a directory gives a name to a node. -/
def entrySet (d : NodeId) (name : Name) {id : NodeId} (hid : (t.node? id).isSome) : Sound :=
  t.entriesModified d (assign name id) fun {other otherName node} h => by
    by_cases hd : t.isDirectory d
    · have h' := entry?_setEntry hd name id other otherName
      rw [FileTree.setEntry] at h'
      rw [h'] at h
      split at h
      · exact Option.some.inj h ▸ hid
      · exact t.wellFormed.closed h
    · -- a node that is no directory has no entry to set
      have hother : t.isDirectory other := by
        have := isDirectory_of_entry?_eq_some h
        rwa [isDirectory_modifyEntries] at this
      have hne : other ≠ d := fun e => hd (e ▸ hother)
      rw [FileTree.entry?, directory?_modifyEntries, if_neg hne] at h
      exact t.wellFormed.closed h

/-- A tree in which a directory has no entry with a name. -/
def entryRemoved (d : NodeId) (name : Name) : Sound :=
  t.entriesModified d (·.filter (·.1 ≠ name)) fun {other otherName node} h => by
    have h' := t.entry?_removeEntry d name other otherName
    rw [FileTree.removeEntry] at h'
    rw [h'] at h
    split at h
    · cases h
    · exact t.wellFormed.closed h

/-- A tree with a new node, which is no directory, under a name. -/
def placed (d : NodeId) (name : Name) (node : Node) (hnode : node.isDirectory = false) : Sound :=
  have hid : ((t.added node hnode).node? t.fresh).isSome := by simp [added, node?_add]
  (t.added node hnode).entrySet d name hid

/-- A tree in which a file is changed. -/
def fileModified (id : NodeId) (change : File → File) : Sound where
  toFileTree := t.modifyFile id change
  wellFormed := by
    refine t.wellFormed_of_directory? ?_ rfl rfl (t.directory?_modifyFile id · change) fun h => ?_
    · rw [ids_modifyFile]
      exact t.wellFormed.distinct
    · rw [isSome_node?_modifyFile]
      exact t.wellFormed.closed h

/-- A tree without a node that is no directory and has no name. -/
def removed {id : NodeId} (hdir : t.isDirectory id = false)
    (hunnamed : ∀ d name, t.entry? d name ≠ some id) : Sound where
  toFileTree := t.remove id
  wellFormed := by
    refine t.wellFormed_of_directory? ?_ rfl rfl (directory?_remove_of_not_directory hdir)
      fun {d name other} h => ?_
    · rw [ids_remove]
      exact t.wellFormed.distinct.filter _
    · -- only a node without a name is taken away, so no name is left behind
      have hne : other ≠ id := fun e => hunnamed d name (e ▸ h)
      rw [node?_remove, if_neg hne]
      exact t.wellFormed.closed h

end Sound

end LinearLight.FileTree
