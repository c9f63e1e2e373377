import LinearLight.Proofs.FileTree.NamedEntry

/-!
# Paths that go on leading where they led

Directories are never replaced. So a walk leads where it led as long as the links that it follows
are still there: when it follows none, or when calls have replaced no link. Where the directory part
of a path goes on leading where it led, the path goes on naming the entry that it named.

## Main definitions

- `FileTree.KeepsDirectories`, `FileTree.KeepsLinks`: what calls have left in its place
- `FileTree.KeepsWay`: the directory part of a path leads where it led
- `FileTree.FollowsNoLink`: the directory part of a path passes no link

## Main statements

- `FileTree.Leads.kept`: a walk in a tree is one in the changed tree
- `FileTree.SameExcept.keepsWay`, `FileTree.FollowsNoLink.keepsWay`
- `FileTree.KeepsWay.renameTarget`, `FileTree.KeepsWay.resolveDirectory`
-/

namespace LinearLight.FileTree

variable {t after : FileTree} {changed : NodeId → Name → Prop} {p : Path}

/-- Every directory is where it was, under the names that it had. -/
structure KeepsDirectories (t after : FileTree) : Prop where
  root : after.root = t.root
  directory : ∀ d parent entries, t.directory? d = some (parent, entries) →
    ∃ entries', after.directory? d = some (parent, entries')
  subdirectory : ∀ d name id, t.entry? d name = some id → t.isDirectory id →
    after.entry? d name = some id

/-- Every link is where it was and stands for the path that it stood for. -/
def KeepsLinks (t after : FileTree) : Prop :=
  ∀ d name id target, t.entry? d name = some id → t.node? id = some (.link target) →
    after.entry? d name = some id ∧ after.node? id = some (.link target)

theorem KeepsDirectories.isDirectory (h : t.KeepsDirectories after) {d : NodeId}
    (hd : t.isDirectory d) : after.isDirectory d := by
  obtain ⟨parent, entries, hentries⟩ := isDirectory_iff.mp hd
  obtain ⟨entries', hentries'⟩ := h.directory d parent entries hentries
  exact isDirectory_iff.mpr ⟨parent, entries', hentries'⟩

theorem KeepsDirectories.start_eq (h : t.KeepsDirectories after) (d : NodeId) (p : Path) :
    after.start d p = t.start d p := by
  rw [start, start, h.root]

theorem SameExcept.keepsDirectories (h : t.SameExcept after changed) :
    t.KeepsDirectories after :=
  ⟨h.root, h.directory, h.subdirectory⟩

/-- Calls that have replaced no link have kept all of them. -/
theorem SameExcept.keepsLinks (h : t.SameExcept after changed)
    (hchanged : ∀ d name id target, changed d name → t.entry? d name = some id →
      t.node? id ≠ some (.link target)) : t.KeepsLinks after := by
  intro d name id target hid hlink
  have hkept : ¬ changed d name := fun hc => hchanged d name id target hc hid hlink
  exact ⟨(h.entry d name hkept).trans hid, h.node id _ hlink rfl⟩

theorem Leads.links_le {links d names r} (h : t.Leads links d names r) : r.2 ≤ links := by
  induction h with
  | done => exact Nat.le_refl _
  | dot _ _ ih => exact ih
  | dotDot _ _ ih => exact ih
  | down _ _ _ _ _ _ ih => exact ih
  | link _ _ _ _ _ _ ih => exact Nat.le_succ_of_le ih

/-- A walk that follows no link passes directories only, and they stay where they are. One that
follows links goes on as it went if these stay, too. -/
theorem Leads.kept {links d names r} (h : t.Leads links d names r)
    (hdirectories : t.KeepsDirectories after) (hlinks : r.2 = links ∨ t.KeepsLinks after) :
    after.Leads links d names r := by
  induction h with
  | done => exact .done
  | dot hd _ ih => exact .dot (hdirectories.isDirectory hd) (ih hlinks)
  | @dotDot links d parent entries rest r hparent _ ih =>
    obtain ⟨entries', hparent'⟩ := hdirectories.directory d parent entries hparent
    exact .dotDot hparent' (ih hlinks)
  | @down links d name id rest r hdot hdotDot hlength hid hdir _ ih =>
    exact .down hdot hdotDot hlength (hdirectories.subdirectory d name id hid hdir)
      (hdirectories.isDirectory hdir) (ih hlinks)
  | @link links d name id target rest r hdot hdotDot hlength hid hlink hrest ih =>
    rcases hlinks with hlinks | hlinks
    · -- a link that is followed is counted down, and nothing counts up
      have := hrest.links_le
      omega
    · obtain ⟨hid', hlink'⟩ := hlinks d name id target hid hlink
      refine .link hdot hdotDot hlength hid' hlink' ?_
      rw [hdirectories.start_eq]
      exact ih (.inr hlinks)

/-- The segments of a path but the last lead in the changed tree where they led before. -/
def KeepsWay (t after : FileTree) (p : Path) : Prop :=
  ∀ r, t.Leads linkLimit (t.start t.current p) p.names.dropLast r →
    after.Leads linkLimit (t.start t.current p) p.names.dropLast r

/-- The segments of a path but the last follow no link on their way to a directory. -/
def FollowsNoLink (t : FileTree) (p : Path) : Prop :=
  ∀ d left, t.walk linkLimit (t.start t.current p) p.names.dropLast = .ok (d, left) →
    left = linkLimit

theorem SameExcept.keepsWay (hsame : t.SameExcept after changed) (hlinks : t.KeepsLinks after)
    (p : Path) : t.KeepsWay after p :=
  fun _ hleads => hleads.kept hsame.keepsDirectories (.inr hlinks)

theorem FollowsNoLink.keepsWay (h : t.FollowsNoLink p) (hsame : t.SameExcept after changed) :
    t.KeepsWay after p :=
  fun r hleads => hleads.kept hsame.keepsDirectories (.inl (h r.1 r.2 hleads.walk_eq))

namespace KeepsWay

theorem locate (h : t.KeepsWay after p) (hsame : t.SameExcept after changed) {location : Location}
    (hlocate : t.locate p = .ok location) : after.locate p = .ok location := by
  obtain ⟨hcheck, d, left, hleads, rfl⟩ := locate_eq_ok_iff.mp hlocate
  have hleads' := h (d, left) hleads
  rw [← hsame.start_eq] at hleads'
  exact locate_eq_ok_iff.mpr ⟨hcheck, d, left, hleads', rfl⟩

/-- A target of a move stays one: what replaces an entry is no directory. -/
theorem renameTarget {t : Sound} (h : t.KeepsWay after p)
    (hsame : t.SameExcept after changed) {target : NodeId × Name}
    (htarget : t.renameTarget p = .ok target) : after.renameTarget p = .ok target := by
  obtain ⟨d, name⟩ := target
  obtain ⟨hlocate, hlength, hentry⟩ := renameTarget_eq_ok_iff.mp htarget
  refine renameTarget_eq_ok_iff.mpr ⟨h.locate hsame hlocate, hlength, fun id hid => ?_⟩
  obtain hold | hfile := hsame.file d name id hid
  · rw [hsame.isDirectory_eq (t.wellFormed.closed hold)]
    exact hentry id hold
  · obtain ⟨f, hf⟩ := Option.isSome_iff_exists.mp hfile
    exact isDirectory_of_file? hf

/-- The directory of the staging file is the one of the target, so it is found as well. -/
theorem resolveDirectory {t after : Sound} (h : t.KeepsWay after p)
    (hsame : t.SameExcept after changed) {target : NodeId × Name} {d : NodeId}
    (htarget : t.renameTarget p = .ok target)
    (hd : t.resolveDirectory p.stagingDirectory = .ok d) :
    after.resolveDirectory p.stagingDirectory = .ok d := by
  obtain ⟨hlast, hdot⟩ := getLast?_of_renameTarget htarget
  obtain ⟨hcheck, left, hleads⟩ := resolveDirectory_eq_ok_iff.mp hd
  have hleads' := h (d, left) ((t.leads_stagingDirectory_iff hlast hdot).mp hleads)
  rw [← hsame.start_eq] at hleads'
  exact resolveDirectory_eq_ok_iff.mpr
    ⟨hcheck, left, (after.leads_stagingDirectory_iff hlast hdot).mpr hleads'⟩

end KeepsWay

end LinearLight.FileTree
