import LinearLight.FileTree.Arrange
import LinearLight.Proofs.FileTree.Following

/-!
# Arranged trees are sound

The bare tree is sound and every call that arranges a tree keeps it so, whether it succeeds or not.
So a tree that is arranged from the bare one is sound by the way it is built.

## Main definitions

- `FileTree.Sound.bare`, `FileTree.Sound.after`: the bare tree, and a tree after a call

## Main statements

- `FileTree.Sound.wellFormed_of_openFile`: opening a file, through links or not
- `FileTree.Sound.wellFormed_arrange`: every call that arranges a tree
-/

namespace LinearLight.FileTree

variable {t' : FileTree} {p : Path}

theorem directory?_add_directory {t : FileTree} (parent d : NodeId) :
    (t.add (.directory parent [])).directory? d =
      if d = t.fresh then some (parent, []) else t.directory? d := by
  by_cases h : d = t.fresh
  · rw [directory?, node?_add, if_pos h, if_pos h]
  · rw [if_neg h]
    exact directory?_eq_of_node? (by rw [node?_add, if_neg h])

namespace Sound

def bare : Sound where
  toFileTree := .bare
  wellFormed :=
    { distinct := by decide
      root := rfl
      current := rfl
      parent := fun {d parent entries} h => by
        by_cases hd : d = 0
        · subst hd
          cases h
          rfl
        · simp [FileTree.directory?, FileTree.node?, FileTree.bare, lookup_cons_ite, hd] at h
      closed := fun {d name id} h => by
        by_cases hd : d = 0
        · subst hd
          simp [FileTree.entry?, FileTree.directory?, FileTree.node?, FileTree.bare] at h
        · simp [FileTree.entry?, FileTree.directory?, FileTree.node?, FileTree.bare,
            lookup_cons_ite, hd] at h }

variable (t : Sound)

/-- A tree with one more directory, which is empty and has no name. -/
def directoryAdded {parent : NodeId} (hparent : t.isDirectory parent) : Sound where
  toFileTree := t.add (.directory parent [])
  wellFormed := by
    have hkeep : ∀ {d}, t.isDirectory d →
        FileTree.isDirectory (t.add (.directory parent [])) d := by
      intro d hd
      rw [FileTree.isDirectory, directory?_add_directory, if_neg (ne_fresh_of_isDirectory hd)]
      exact hd
    -- the new directory has the one parent it was given, and no entries
    refine ⟨distinct_add t.wellFormed.distinct _, hkeep t.wellFormed.root,
      hkeep t.wellFormed.current, ?_, ?_⟩
    · intro d parent' entries h
      rw [directory?_add_directory] at h
      split at h
      · cases h
        exact hkeep hparent
      · exact hkeep (t.wellFormed.parent h)
    · intro d name id h
      rw [FileTree.entry?, directory?_add_directory] at h
      by_cases hd : d = t.fresh
      · simp [hd] at h
      · rw [if_neg hd] at h
        have hne : id ≠ t.fresh := fun e => t.entry?_ne_fresh d name (e ▸ h)
        rw [node?_add, if_neg hne]
        exact t.wellFormed.closed h

/-! ### Where the calls find their way to -/

theorem isDirectory_of_locate {location : Location} (h : t.locate p = .ok location) :
    t.isDirectory location.directory := by
  obtain ⟨-, d, left, hleads, rfl⟩ := locate_eq_ok_iff.mp h
  exact hleads.isDirectory_end (t.isDirectory_start_current p)

theorem isSome_node?_of_lookup {id : NodeId} (h : t.lookup p = .ok id) : (t.node? id).isSome := by
  obtain ⟨location, hlocate, h⟩ := bind_eq_ok.mp h
  split at h
  · split at h
    · cases h
    · split at h
      · next hid =>
        cases h
        exact t.wellFormed.closed hid
      · cases h
  · obtain ⟨target, htarget, h⟩ := bind_eq_ok.mp h
    cases target with
    | node id' =>
      cases h
      exact t.inTree_of_follow htarget
    | absent _ _ => cases h

theorem isDirectory_of_vacancy {forDirectory : Bool} {d : NodeId} {name : Name}
    (h : t.vacancy p forDirectory = .ok (d, name)) : t.isDirectory d := by
  obtain ⟨location, hlocate, h⟩ := bind_eq_ok.mp h
  split at h
  · split at h
    · cases h
    · split at h
      · cases h
      · split at h
        · cases h
        · cases h
          exact t.isDirectory_of_locate hlocate
  · cases h

/-! ### The calls -/

theorem wellFormed_of_makeDirectory (h : t.makeDirectory p = .ok t') : t'.WellFormed := by
  obtain ⟨⟨d, name⟩, hvacancy, h⟩ := bind_eq_ok.mp h
  cases h
  have hd := t.isDirectory_of_vacancy hvacancy
  exact ((t.directoryAdded hd).entrySet d name (by simp [directoryAdded, node?_add])).wellFormed

theorem wellFormed_of_ensureDirectory (h : t.ensureDirectory p = .ok t') :
    t'.WellFormed := by
  unfold FileTree.ensureDirectory at h
  split at h
  · next hmade =>
    cases h
    exact t.wellFormed_of_makeDirectory hmade
  · split at h
    · cases h
      exact t.wellFormed
    · cases h

theorem wellFormed_settled {ε : Type} {result : Except ε FileTree}
    (h : ∀ t', result = .ok t' → t'.WellFormed) : (t.settled result).2.WellFormed := by
  cases result with
  | ok t' => exact h t' rfl
  | error e => exact t.wellFormed

theorem wellFormed_makeDirectoriesUpTo (levels : Nat) (p : Path) :
    (t.makeDirectoriesUpTo levels p).2.WellFormed := by
  induction levels generalizing p with
  | zero =>
    unfold FileTree.makeDirectoriesUpTo
    split
    · exact t.wellFormed
    · split
      · contradiction
      · exact t.wellFormed_settled fun _ => t.wellFormed_of_ensureDirectory
  | succ levels ih =>
    unfold FileTree.makeDirectoriesUpTo
    split
    · exact t.wellFormed
    · split
      · next above parent _ hlevels _ =>
        obtain rfl : levels = above := Nat.succ.inj hlevels
        -- what has been made above stays, also if the rest fails
        have habove := ih parent
        split
        · next tree heq =>
          rw [heq] at habove
          let made : Sound := ⟨tree, habove⟩
          exact made.wellFormed_settled fun _ => made.wellFormed_of_ensureDirectory
        · exact habove
      · exact t.wellFormed_settled fun _ => t.wellFormed_of_ensureDirectory

theorem wellFormed_of_openNode {id : NodeId} {access : Access} {handle : Handle}
    (h : t.openNode id access = .ok (t', handle)) : t'.WellFormed := by
  unfold FileTree.openNode at h
  split at h
  · split at h
    · cases h
      exact t.wellFormed
    · cases h
  · split at h
    · cases h
    · split at h
      · cases h
        exact (t.fileModified id _).wellFormed
      · cases h
        exact t.wellFormed
      · cases h
        exact t.wellFormed
  · cases h
    exact t.wellFormed
  · cases h
    exact t.wellFormed
  · cases h
    exact t.wellFormed
  · cases h
  · cases h

theorem wellFormed_of_openFile {access : Access} {handle : Handle}
    (h : t.openFile p access = .ok (t', handle)) : t'.WellFormed := by
  obtain ⟨target, htarget, h⟩ := bind_eq_ok.mp h
  cases target with
  | node id => exact t.wellFormed_of_openNode h
  | absent d name =>
    simp only at h
    split at h
    · cases h
      exact (t.placed d name _ rfl).wellFormed
    · cases h

theorem wellFormed_store (handle : Handle) (bytes : Bytes) :
    (handle.store bytes t.toFileTree).WellFormed := by
  cases handle with
  | file id position => exact (t.fileModified id _).wellFormed
  | device => exact t.wellFormed
  | readOnly => exact t.wellFormed

theorem wellFormed_of_putFile {data : Bytes} {mode : Nat} (h : t.putFile p data mode = .ok t') :
    t'.WellFormed := by
  obtain ⟨⟨opened, handle⟩, hopen, h⟩ := bind_eq_ok.mp h
  have hopened := t.wellFormed_of_openFile hopen
  cases handle with
  | file id position =>
    cases h
    let stored : Sound := ⟨_, wellFormed_store ⟨opened, hopened⟩ (.file id position) data⟩
    exact (stored.fileModified id _).wellFormed
  | device =>
    simp only at h
    split at h
    · cases h
      exact hopened
    · cases h
  | readOnly => cases h

theorem wellFormed_of_makeLink {target : Path} (h : t.makeLink p target = .ok t') :
    t'.WellFormed := by
  obtain ⟨_, -, h⟩ := bind_eq_ok.mp h
  obtain ⟨⟨d, name⟩, -, h⟩ := bind_eq_ok.mp h
  cases h
  exact (t.placed d name (.link target) rfl).wellFormed

theorem wellFormed_of_makeHardLink {existing : Path} (h : t.makeHardLink p existing = .ok t') :
    t'.WellFormed := by
  obtain ⟨id, hid, h⟩ := bind_eq_ok.mp h
  obtain ⟨⟨d, name⟩, -, h⟩ := bind_eq_ok.mp h
  have hset := (t.entrySet d name (t.isSome_node?_of_lookup hid)).wellFormed
  simp only at h
  split at h
  · cases h
  · cases h
  · cases h
    exact hset

theorem wellFormed_of_delete (h : t.delete p = .ok t') : t'.WellFormed := by
  obtain ⟨id, -, h⟩ := bind_eq_ok.mp h
  obtain ⟨location, -, h⟩ := bind_eq_ok.mp h
  split at h
  · split at h
    · cases h
      exact (t.entryRemoved _ _).wellFormed
    · cases h
  · cases h
  · cases h

/-- Every call that arranges a tree keeps it well-formed, also one that fails half-way. -/
theorem wellFormed_arrange (a : Arrangement) : (t.arrange a).2.WellFormed := by
  unfold FileTree.arrange
  split
  · exact t.wellFormed
  · cases a with
    | makeDirectories path => exact t.wellFormed_makeDirectoriesUpTo _ path
    | putFile path data mode => exact t.wellFormed_settled fun _ => t.wellFormed_of_putFile
    | makeLink path target => exact t.wellFormed_settled fun _ => t.wellFormed_of_makeLink
    | makeHardLink path existing =>
      exact t.wellFormed_settled fun _ => t.wellFormed_of_makeHardLink
    | delete path => exact t.wellFormed_settled fun _ => t.wellFormed_of_delete

/-- A tree after a call that arranges it. -/
def after (a : Arrangement) : Sound := ⟨(t.arrange a).2, t.wellFormed_arrange a⟩

end Sound

end LinearLight.FileTree
