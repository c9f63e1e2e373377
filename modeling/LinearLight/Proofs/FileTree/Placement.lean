import LinearLight.Proofs.FileTree.NamedEntry

/-!
# A file placed, changed, moved and taken away

What becomes of a tree when a file is placed under a name not in use and then changed, moved over
another entry, or taken away again. The results are equal to trees that do not mention the first
name: a move is a placement at the target, and taking away restores the tree.

## Main statements

- `FileTree.modifyFile_place`
- `FileTree.discard_place`
- `FileTree.rename_place`
-/

namespace LinearLight.FileTree

variable {t : Sound} {d : NodeId} {name : Name} {f : File}

/-- Two trees are one if their numbers, their directories and their other nodes are the same. -/
theorem eq_of_directory? {t other : FileTree}
    (hids : t.nodes.map Prod.fst = other.nodes.map Prod.fst)
    (hdistinct : (t.nodes.map Prod.fst).Nodup) (hdir : ∀ id, t.directory? id = other.directory? id)
    (hnode : ∀ id, t.isDirectory id = false → t.node? id = other.node? id)
    (hroot : t.root = other.root) (hcurrent : t.current = other.current)
    (hpath : t.currentPath = other.currentPath) : t = other := by
  refine eq_of_node? hids hdistinct (fun id => ?_) hroot hcurrent hpath
  cases h : t.directory? id with
  | none => exact hnode id (by rw [isDirectory, h]; rfl)
  | some e =>
    have h' : other.directory? id = some e := by rw [← hdir, h]
    rw [directory?_eq_some.mp h, directory?_eq_some.mp h']

theorem ids_place {t : FileTree} (node : Node) :
    (t.place d name node).nodes.map Prod.fst = t.nodes.map Prod.fst ++ [t.fresh] := by
  rw [place, ids_setEntry, ids_add]

/-- A file that has been placed and is then changed might have been placed as changed. -/
theorem modifyFile_place (change : File → File) :
    (t.place d name (.file f)).modifyFile t.fresh change = t.place d name (.file (change f)) := by
  refine eq_of_directory? ?_ ?_ (fun id => ?_) (fun id hid => ?_) rfl rfl rfl
  · rw [ids_modifyFile, ids_place, ids_place]
  · exact ((t.placed d name (.file f) rfl).fileModified _ _).wellFormed.distinct
  · rw [directory?_modifyFile, directory?_place name rfl, directory?_place name rfl]
  · rw [isDirectory_modifyFile, isDirectory_place name rfl] at hid
    rw [node?_place_of_not_directory name rfl hid]
    by_cases h : id = t.fresh
    · subst h
      rw [if_pos rfl, modifyFile, node?_modify, if_pos rfl,
        node?_place_of_not_directory name rfl hid, if_pos rfl]
      rfl
    · rw [node?_modifyFile_of_ne _ _ _ h, node?_place_of_not_directory name rfl hid]
      simp [h]

/-- A file that has been placed under a name not in use and is taken away again leaves no trace. -/
theorem discard_place (hunused : t.entry? d name = none) :
    ((t.place d name (.file f)).removeEntry d name).remove t.fresh = t := by
  have hids : (((t.place d name (.file f)).removeEntry d name).remove t.fresh).nodes.map Prod.fst =
      t.nodes.map Prod.fst := by
    -- no node of the tree has the number that is taken away
    have hkeep : (t.nodes.map Prod.fst).filter (· ≠ t.fresh) = t.nodes.map Prod.fst := by
      rw [List.filter_eq_self]
      intro id hid
      obtain ⟨entry, hentry, rfl⟩ := List.mem_map.mp hid
      simpa using Nat.ne_of_lt (lt_fresh_of_mem hentry)
    rw [ids_remove, ids_removeEntry, ids_place, List.filter_append, hkeep]
    simp
  refine eq_of_directory? hids (hids ▸ t.wellFormed.distinct) (fun id => ?_) (fun id hid => ?_)
    rfl rfl rfl
  · rw [directory?_remove, directory?_removeEntry, directory?_place name rfl,
      directory?_place name rfl]
    by_cases hfresh : id = t.fresh
    · subst hfresh
      rw [if_pos rfl, directory?, node?_fresh]
    · by_cases hd : id = d
      · subst hd
        rcases hentries : t.directory? id with _ | ⟨parent, entries⟩
        · simp [hfresh]
        · have hlookup : entries.lookup name = none := by
            simpa [FileTree.entry?, hentries] using hunused
          -- the name came to the end of the entries, and goes from there
          simpa [hfresh] using filter_assign_self t.fresh hlookup
      · simp [hfresh, hd]
  · by_cases hfresh : id = t.fresh
    · subst hfresh
      simp [node?_remove]
    · rw [isDirectory, directory?_remove, if_neg hfresh, ← isDirectory,
        isDirectory_removeEntry] at hid
      rw [node?_remove, if_neg hfresh, node?_removeEntry_of_not_directory hid,
        node?_place_of_not_directory name rfl (by rwa [isDirectory_place name rfl] at hid),
        if_neg hfresh]

/-- A file that has been placed under one name and is then moved to another one might have been
placed there. -/
theorem removeEntry_setEntry_place (hunused : t.entry? d name = none)
    {d' : NodeId} {name' : Name} (hne : ¬ (d' = d ∧ name' = name)) :
    ((t.place d name (.file f)).setEntry d' name' t.fresh).removeEntry d name =
      t.place d' name' (.file f) := by
  have hids : (((t.place d name (.file f)).setEntry d' name' t.fresh).removeEntry d name).nodes.map
      Prod.fst = (t.place d' name' (.file f)).nodes.map Prod.fst := by
    rw [ids_removeEntry, ids_setEntry, ids_place, ids_place]
  have hdistinct := (t.placed d' name' (.file f) rfl).wellFormed.distinct
  refine eq_of_directory? hids (hids ▸ hdistinct) (fun id => ?_) (fun id hid => ?_)
    rfl rfl rfl
  · rw [directory?_removeEntry, directory?_setEntry, directory?_setEntry, directory?_place name rfl,
      directory?_place name rfl, directory?_place name rfl, directory?_place name' rfl]
    -- the directory may be that of either name, of both, or of none
    by_cases hd : id = d
    · subst hd
      rcases hentries : t.directory? id with _ | ⟨parent, entries⟩
      · by_cases hd' : id = d'
        · subst hd'
          simp [hentries]
        · simp [hd']
      · have hlookup : entries.lookup name = none := by
          simpa [FileTree.entry?, hentries] using hunused
        have hself := filter_assign_self t.fresh hlookup
        by_cases hd' : id = d'
        · subst hd'
          have hname : name' ≠ name := fun e => hne ⟨rfl, e⟩
          have hboth := filter_assign hname t.fresh (assign name t.fresh entries)
          rw [hself] at hboth
          simpa [hentries] using hboth
        · simpa [hd', hentries] using hself
    · by_cases hd' : id = d'
      · subst hd'
        simp [hd]
      · simp [hd, hd']
  · have hold : t.isDirectory id = false := by
      rwa [isDirectory_removeEntry, isDirectory_setEntry, isDirectory_place name rfl] at hid
    have hset : (t.place d name (.file f)).isDirectory id = false := by
      rwa [isDirectory_place name rfl]
    rw [node?_removeEntry_of_not_directory (by rwa [isDirectory_setEntry]),
      node?_setEntry_of_not_directory hset, node?_place_of_not_directory name rfl hold,
      node?_place_of_not_directory name' rfl hold]

/-- A file that is staged and then moved ends up placed at the target that its path had all the
time. -/
theorem rename_place (hd : t.isDirectory d) (hunused : t.entry? d name = none)
    {p : Path} {after : FileTree}
    (h : (t.place d name (.file f)).rename d name t.fresh p = .ok after) :
    ∃ d' name', t.renameTarget p = .ok (d', name') ∧ after = t.place d' name' (.file f) := by
  obtain ⟨d', name', htarget, rfl⟩ := of_rename_eq_ok h
  have hothers := (replaced_place_of_unused hd hunused f).others
  refine ⟨d', name', hothers.renameTarget htarget, ?_⟩
  rw [entry?_place name hd rfl]
  by_cases hsame : d' = d ∧ name' = name
  · -- the path names the staging file itself
    obtain ⟨rfl, rfl⟩ := hsame
    rw [if_pos (if_pos ⟨rfl, rfl⟩)]
  · rw [if_neg hsame, if_neg (t.entry?_ne_fresh d' name')]
    exact removeEntry_setEntry_place hunused hsame

end LinearLight.FileTree
