import LinearLight.FileTree.Operations

/-!
# What names and numbers stand for after a change

Every change to a tree is read through two questions: which node a number stands for, and which
number a name stands for in a directory. Each operation gets its answers here, so that no later
proof looks at the store itself.

## Main statements

- `FileTree.node?_add`, `FileTree.node?_modify`, `FileTree.node?_remove`
- `FileTree.entry?_setEntry`, `FileTree.entry?_removeEntry`
- `FileTree.eq_of_node?`: two trees with the same numbers and the same nodes are one
-/

namespace LinearLight

/-! ### Association lists -/

section Lists

variable {α β : Type} [BEq α] [LawfulBEq α] [DecidableEq α]

theorem lookup_cons_ite (key other : α) (value : β) (rest : List (α × β)) :
    ((key, value) :: rest).lookup other =
      if other = key then some value else rest.lookup other := by
  by_cases h : other = key
  · simp [h]
  · have hne : (other == key) = false := beq_eq_false_iff_ne.mpr h
    simp [List.lookup_cons, hne, h]

theorem lookup_filter_ne (key other : α) (entries : List (α × β)) :
    (entries.filter (·.1 ≠ key)).lookup other =
      if other = key then none else entries.lookup other := by
  induction entries with
  | nil => simp
  | cons entry rest ih =>
    obtain ⟨first, value⟩ := entry
    by_cases hfirst : first = key
    · subst first
      rw [List.filter_cons_of_neg (by simp), ih, lookup_cons_ite]
      by_cases h : other = key <;> simp [h]
    · rw [List.filter_cons_of_pos (by simpa using hfirst), lookup_cons_ite, ih, lookup_cons_ite]
      by_cases h : other = first
      · subst other
        simp [hfirst]
      · simp [h]

theorem lookup_map_at (key other : α) (change : β → β) (entries : List (α × β)) :
    (entries.map fun entry => if entry.1 = key then (key, change entry.2) else entry).lookup other =
      if other = key then (entries.lookup key).map change else entries.lookup other := by
  induction entries with
  | nil => simp
  | cons entry rest ih =>
    obtain ⟨first, value⟩ := entry
    by_cases hfirst : first = key
    · subst first
      simp only [List.map_cons, if_true, lookup_cons_ite, ih]
      by_cases h : other = key <;> simp [h]
    · simp only [List.map_cons, hfirst, if_false, lookup_cons_ite, ih]
      by_cases h : other = first
      · subst other
        simp [hfirst]
      · simp [h, Ne.symm hfirst]

/-- Two lists with the same keys in the same order, none of them twice, that give the same answers
are one. -/
theorem eq_of_lookup_eq {left right : List (α × β)} (hkeys : left.map Prod.fst = right.map Prod.fst)
    (hdistinct : (left.map Prod.fst).Nodup) (h : ∀ key, left.lookup key = right.lookup key) :
    left = right := by
  induction left generalizing right with
  | nil => exact (List.map_eq_nil_iff.mp hkeys.symm).symm
  | cons entry rest ih =>
    obtain ⟨first, value⟩ := entry
    obtain _ | ⟨⟨other, value'⟩, rest'⟩ := right
    · simp at hkeys
    · simp only [List.map_cons, List.cons.injEq] at hkeys
      obtain ⟨rfl, hrest⟩ := hkeys
      rw [List.map_cons, List.nodup_cons] at hdistinct
      have hvalue : value = value' := by simpa [lookup_cons_ite] using h first
      subst hvalue
      congr 1
      refine ih hrest hdistinct.2 fun key => ?_
      by_cases hkey : key = first
      · subst key
        have hnone : ∀ entries : List (α × β), first ∉ entries.map Prod.fst →
            entries.lookup first = none := by
          intro entries hnot
          rw [List.lookup_eq_none_iff]
          intro entry hentry
          have hne : first ≠ entry.1 := fun e => hnot (List.mem_map.mpr ⟨entry, hentry, e.symm⟩)
          simpa using hne
        rw [hnone rest hdistinct.1, hnone rest' (hrest ▸ hdistinct.1)]
      · simpa [lookup_cons_ite, hkey] using h key

end Lists

/-! ### Entries of a directory -/

section Entries

variable {name : Name} {entries : List (Name × NodeId)}

theorem lookup_assign (name other : Name) (id : NodeId) (entries : List (Name × NodeId)) :
    (assign name id entries).lookup other =
      if other = name then some id else entries.lookup other := by
  induction entries with
  | nil => rw [assign, lookup_cons_ite]
  | cons entry rest ih =>
    obtain ⟨first, node⟩ := entry
    by_cases hfirst : first = name
    · subst first
      simp only [assign, if_true, lookup_cons_ite]
      by_cases h : other = name <;> simp [h]
    · simp only [assign, hfirst, if_false, lookup_cons_ite, ih]
      by_cases h : other = first
      · subst other
        simp [hfirst]
      · simp [h]

/-- A name that was not in use, set and taken away again, leaves nothing behind. -/
theorem filter_assign_self (id : NodeId) (h : entries.lookup name = none) :
    (assign name id entries).filter (·.1 ≠ name) = entries := by
  induction entries with
  | nil => simp [assign]
  | cons entry rest ih =>
    obtain ⟨first, node⟩ := entry
    rw [lookup_cons_ite] at h
    have hne : first ≠ name := by
      rintro rfl
      simp at h
    rw [if_neg (Ne.symm hne)] at h
    simpa [assign, hne] using ih h

/-- Taking a name away does not disturb the setting of another one. -/
theorem filter_assign {other : Name} (hne : other ≠ name) (id : NodeId)
    (entries : List (Name × NodeId)) :
    (assign other id entries).filter (·.1 ≠ name) =
      assign other id (entries.filter (·.1 ≠ name)) := by
  induction entries with
  | nil => simp [assign, hne]
  | cons entry rest ih =>
    by_cases hother : entry.1 = other
    · have hkeep : entry.1 ≠ name := hother ▸ hne
      simp [assign, hother, hne]
    · by_cases hname : entry.1 = name
      · simpa [assign, hother, hname, Ne.symm hne] using ih
      · simpa [assign, hother, hname] using ih

end Entries

namespace FileTree

variable {t : FileTree}

/-! ### The store -/

theorem lt_fresh_of_mem {entry : NodeId × Node} (h : entry ∈ t.nodes) : entry.1 < t.fresh := by
  unfold fresh
  generalize t.nodes = nodes at h
  induction nodes with
  | nil => simp at h
  | cons first rest ih =>
    rw [List.foldr_cons]
    rcases List.mem_cons.mp h with rfl | h
    · exact Nat.lt_of_lt_of_le (Nat.lt_succ_self _) (Nat.le_max_left _ _)
    · exact Nat.lt_of_lt_of_le (ih h) (Nat.le_max_right _ _)

/-- The next number stands for nothing yet. -/
@[simp] theorem node?_fresh (t : FileTree) : t.node? t.fresh = none := by
  rw [node?, List.lookup_eq_none_iff]
  intro entry hentry
  have hlt := lt_fresh_of_mem hentry
  have hne : t.fresh ≠ entry.1 := Nat.ne_of_gt hlt
  simpa using hne

theorem ne_fresh_of_node? {id : NodeId} {node : Node} (h : t.node? id = some node) :
    id ≠ t.fresh := by
  rintro rfl
  simp at h

theorem node?_add (node : Node) (id : NodeId) :
    (t.add node).node? id = if id = t.fresh then some node else t.node? id := by
  have hfresh : t.nodes.lookup t.fresh = none := node?_fresh t
  rw [node?, add, List.lookup_append, lookup_cons_ite]
  by_cases h : id = t.fresh
  · simp [h, hfresh]
  · simp [h, node?]

theorem node?_modify (id other : NodeId) (change : Node → Node) :
    (t.modify id change).node? other =
      if other = id then (t.node? id).map change else t.node? other :=
  lookup_map_at id other change t.nodes

theorem node?_remove (id other : NodeId) :
    (t.remove id).node? other = if other = id then none else t.node? other :=
  lookup_filter_ne id other t.nodes

/-- Two trees with the same numbers, none of them twice, and the same nodes are one. -/
theorem eq_of_node? {other : FileTree} (hids : t.nodes.map Prod.fst = other.nodes.map Prod.fst)
    (hdistinct : (t.nodes.map Prod.fst).Nodup) (hnode : ∀ id, t.node? id = other.node? id)
    (hroot : t.root = other.root) (hcurrent : t.current = other.current)
    (hpath : t.currentPath = other.currentPath) : t = other := by
  obtain ⟨nodes, root, current, currentPath⟩ := t
  obtain ⟨nodes', root', current', currentPath'⟩ := other
  have hnodes : nodes = nodes' := eq_of_lookup_eq hids hdistinct hnode
  simp_all

/-! ### Directories and files -/

theorem directory?_eq_some {d parent : NodeId} {entries : List (Name × NodeId)} :
    t.directory? d = some (parent, entries) ↔ t.node? d = some (.directory parent entries) := by
  unfold directory?
  split <;> simp_all

theorem isDirectory_iff {d : NodeId} :
    t.isDirectory d = true ↔ ∃ parent entries, t.directory? d = some (parent, entries) := by
  rw [isDirectory, Option.isSome_iff_exists, Prod.exists]

theorem isDirectory_of_node? {id : NodeId} {node : Node} (h : t.node? id = some node) :
    t.isDirectory id = node.isDirectory := by
  rw [isDirectory, directory?, h]
  cases node <;> rfl

theorem file?_eq_some {id : NodeId} {f : File} :
    t.file? id = some f ↔ t.node? id = some (.file f) := by
  unfold file?
  split <;> simp_all

/-- Only a directory has entries. -/
theorem isDirectory_of_entry?_eq_some {d id : NodeId} {name : Name}
    (h : t.entry? d name = some id) :
    t.isDirectory d = true := by
  unfold entry? at h
  unfold isDirectory
  split at h <;> simp_all

theorem directory?_eq_of_node? {other : FileTree} {d d' : NodeId} (h : t.node? d = other.node? d') :
    t.directory? d = other.directory? d' := by
  rw [directory?, directory?, h]

theorem directory?_remove (id other : NodeId) :
    (t.remove id).directory? other = if other = id then none else t.directory? other := by
  unfold directory?
  rw [node?_remove]
  by_cases h : other = id <;> simp [h]

theorem directory?_remove_of_not_directory {id : NodeId} (h : t.isDirectory id = false)
    (other : NodeId) : (t.remove id).directory? other = t.directory? other := by
  rw [directory?_remove]
  split
  · next heq =>
    rw [heq]
    exact (Option.isNone_iff_eq_none.mp (by simpa [isDirectory] using h)).symm
  · rfl

theorem entry?_eq_of_directory? {other : FileTree} {d d' : NodeId} (name : Name)
    (h : t.directory? d = other.directory? d') : t.entry? d name = other.entry? d' name := by
  rw [FileTree.entry?, entry?, h]

theorem entry?_remove_of_not_directory {id : NodeId} (h : t.isDirectory id = false) (d : NodeId)
    (name : Name) : entry? (t.remove id) d name = t.entry? d name :=
  entry?_eq_of_directory? name (directory?_remove_of_not_directory h d)

theorem file?_remove_of_ne {id other : NodeId} (h : other ≠ id) :
    (t.remove id).file? other = t.file? other := by
  rw [file?, node?_remove, if_neg h, file?]

/-! ### Changes to one file -/

section ModifyFile

variable (id other : NodeId) (change : File → File)

theorem node?_modifyFile_of_ne (h : other ≠ id) :
    (t.modifyFile id change).node? other = t.node? other := by
  rw [modifyFile, node?_modify, if_neg h]

@[simp] theorem file?_modifyFile :
    (t.modifyFile id change).file? other =
      if other = id then (t.file? id).map change else t.file? other := by
  unfold file?
  rw [modifyFile, node?_modify]
  by_cases h : other = id
  · subst other
    rcases t.node? id with _ | _ | _ | _ | _ <;> simp
  · simp [h]

@[simp] theorem directory?_modifyFile :
    (t.modifyFile id change).directory? other = t.directory? other := by
  unfold directory?
  rw [modifyFile, node?_modify]
  by_cases h : other = id
  · subst other
    rcases t.node? id with _ | _ | _ | _ | _ <;> simp
  · simp [h]

@[simp] theorem entry?_modifyFile (name : Name) :
    entry? (t.modifyFile id change) other name = t.entry? other name :=
  entry?_eq_of_directory? name (directory?_modifyFile id other change)

@[simp] theorem isDirectory_modifyFile :
    (t.modifyFile id change).isDirectory other = t.isDirectory other := by
  rw [isDirectory, directory?_modifyFile, isDirectory]

theorem isSome_node?_modifyFile :
    ((t.modifyFile id change).node? other).isSome = (t.node? other).isSome := by
  rw [modifyFile, node?_modify]
  by_cases h : other = id <;> simp [h]

end ModifyFile

/-! ### Changes to one directory -/

section ModifyEntries

variable (d other : NodeId) (change : List (Name × NodeId) → List (Name × NodeId))

@[simp] theorem directory?_modifyEntries :
    (t.modifyEntries d change).directory? other =
      if other = d then (t.directory? d).map fun e => (e.1, change e.2)
      else t.directory? other := by
  unfold directory?
  rw [modifyEntries, node?_modify]
  by_cases h : other = d
  · subst other
    rcases t.node? d with _ | _ | _ | _ | _ <;> simp
  · simp [h]

/-- What is no directory is as it was. -/
theorem node?_modifyEntries_of_not_directory (h : t.isDirectory other = false) :
    (t.modifyEntries d change).node? other = t.node? other := by
  rw [modifyEntries, node?_modify]
  by_cases hd : other = d
  · subst other
    rw [isDirectory, directory?] at h
    rw [if_pos rfl]
    rcases hnode : t.node? d with _ | _ | _ | _ | _ <;> simp_all
  · rw [if_neg hd]

@[simp] theorem isDirectory_modifyEntries :
    (t.modifyEntries d change).isDirectory other = t.isDirectory other := by
  rw [isDirectory, directory?_modifyEntries, isDirectory]
  by_cases h : other = d <;> simp [h]

theorem isSome_node?_modifyEntries :
    ((t.modifyEntries d change).node? other).isSome = (t.node? other).isSome := by
  rw [modifyEntries, node?_modify]
  by_cases h : other = d <;> simp [h]

@[simp] theorem file?_modifyEntries :
    (t.modifyEntries d change).file? other = t.file? other := by
  unfold file?
  rw [modifyEntries, node?_modify]
  by_cases h : other = d
  · subst other
    rcases t.node? d with _ | _ | _ | _ | _ <;> simp
  · simp [h]

end ModifyEntries

theorem directory?_setEntry (d other : NodeId) (name : Name) (id : NodeId) :
    (t.setEntry d name id).directory? other =
      if other = d then (t.directory? d).map fun e => (e.1, assign name id e.2)
      else t.directory? other :=
  directory?_modifyEntries d other (assign name id)

theorem directory?_removeEntry (d other : NodeId) (name : Name) :
    (t.removeEntry d name).directory? other =
      if other = d then (t.directory? d).map fun e => (e.1, e.2.filter (·.1 ≠ name))
      else t.directory? other :=
  directory?_modifyEntries d other (·.filter (·.1 ≠ name))

theorem node?_setEntry_of_not_directory {other : NodeId} (h : t.isDirectory other = false)
    (d : NodeId) (name : Name) (id : NodeId) :
    (t.setEntry d name id).node? other = t.node? other :=
  node?_modifyEntries_of_not_directory d other (assign name id) h

theorem node?_removeEntry_of_not_directory {other : NodeId} (h : t.isDirectory other = false)
    (d : NodeId) (name : Name) : (t.removeEntry d name).node? other = t.node? other :=
  node?_modifyEntries_of_not_directory d other (·.filter (·.1 ≠ name)) h

@[simp] theorem file?_setEntry (d other : NodeId) (name : Name) (id : NodeId) :
    (t.setEntry d name id).file? other = t.file? other :=
  file?_modifyEntries d other (assign name id)

@[simp] theorem file?_removeEntry (d other : NodeId) (name : Name) :
    (t.removeEntry d name).file? other = t.file? other :=
  file?_modifyEntries d other (·.filter (·.1 ≠ name))

@[simp] theorem isDirectory_setEntry (d other : NodeId) (name : Name) (id : NodeId) :
    (t.setEntry d name id).isDirectory other = t.isDirectory other :=
  isDirectory_modifyEntries d other (assign name id)

@[simp] theorem isDirectory_removeEntry (d other : NodeId) (name : Name) :
    (t.removeEntry d name).isDirectory other = t.isDirectory other :=
  isDirectory_modifyEntries d other (·.filter (·.1 ≠ name))

theorem entry?_setEntry {d : NodeId} (hd : t.isDirectory d = true) (name : Name) (id : NodeId)
    (other : NodeId) (otherName : Name) :
    entry? (t.setEntry d name id) other otherName =
      if other = d ∧ otherName = name then some id else t.entry? other otherName := by
  obtain ⟨parent, entries, hentries⟩ := isDirectory_iff.mp hd
  rw [FileTree.entry?, directory?_setEntry]
  by_cases h : other = d
  · subst other
    simp [hentries, lookup_assign, entry?]
  · simp [h, entry?]

theorem entry?_removeEntry (d : NodeId) (name : Name) (other : NodeId) (otherName : Name) :
    entry? (t.removeEntry d name) other otherName =
      if other = d ∧ otherName = name then none else t.entry? other otherName := by
  rw [FileTree.entry?, directory?_removeEntry]
  by_cases h : other = d
  · subst other
    unfold entry?
    rcases t.directory? d with _ | ⟨parent, entries⟩
    · simp
    · have := lookup_filter_ne name otherName entries
      simpa using this
  · simp [h, entry?]

end FileTree

end LinearLight
