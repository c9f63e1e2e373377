import LinearLight.Proofs.Except
import LinearLight.Proofs.FileTree.Frame

/-!
# Where paths lead in a changed tree

A walk that succeeds is a derivation with a rule for each kind of segment, and facts about walks go
by induction on it. The main fact: no walk passes a file, so new names for files make no path lead
anywhere new.

## Main definitions

- `FileTree.Leads`: the successful walks

## Main statements

- `FileTree.checkPath_eq_ok_iff`: the paths that the system takes
- `FileTree.walk_eq_ok_iff`: the walks that succeed are the derivations
- `FileTree.Leads.of_sameExcept`: a walk after entries have changed is a walk in the tree before
-/

namespace LinearLight

namespace FileTree

theorem checkPath_eq_ok_iff {p : Path} : checkPath p = .ok () ↔
    p.isEmpty = false ∧ p.hasZeroByte = false ∧ p.bytes.length ≤ pathLimit := by
  rw [checkPath, ← Nat.not_lt]
  cases p.isEmpty <;> cases p.hasZeroByte <;> simp

/-- Segments lead from a directory to another one; both ends come with the number of links that may
still be followed. -/
inductive Leads (t : FileTree) : Nat → NodeId → List Name → NodeId × Nat → Prop where
  | done {links d} : Leads t links d [] (d, links)
  | dot {links d rest r} (hd : t.isDirectory d) (h : Leads t links d rest r) :
      Leads t links d (Path.dot :: rest) r
  | dotDot {links d parent entries rest r} (hd : t.directory? d = some (parent, entries))
      (h : Leads t links parent rest r) : Leads t links d (Path.dotDot :: rest) r
  | down {links d name id rest r} (hdot : name ≠ Path.dot) (hdotDot : name ≠ Path.dotDot)
      (hlength : name.length ≤ nameLimit) (hid : t.entry? d name = some id)
      (hdir : t.isDirectory id) (h : Leads t links id rest r) : Leads t links d (name :: rest) r
  | link {links d name id target rest r} (hdot : name ≠ Path.dot) (hdotDot : name ≠ Path.dotDot)
      (hlength : name.length ≤ nameLimit) (hid : t.entry? d name = some id)
      (hlink : t.node? id = some (.link target))
      (h : Leads t links (t.start d target) (target.names ++ rest) r) :
      Leads t (links + 1) d (name :: rest) r

variable {t : FileTree}

theorem Leads.of_walk {links d names r} (h : t.walk links d names = .ok r) :
    t.Leads links d names r := by
  -- a case for each branch of the walk; those that end in an error cannot be
  induction links, d, names using FileTree.walk.induct t with
  | case1 links d =>
    rw [walk] at h
    cases h
    exact .done
  | case2 links d name rest hd => simp [walk, hd] at h
  | case3 links d rest parent entries hd ih =>
    simp only [walk, hd, if_true] at h
    exact .dot (isDirectory_iff.mpr ⟨parent, entries, hd⟩) (ih h)
  | case4 links d rest parent entries hd hne ih =>
    simp only [walk, hd, hne, if_false, if_true] at h
    exact .dotDot hd (ih h)
  | case5 links d name rest parent entries hd hdot hdotDot hlength =>
    simp [walk, hd, hdot, hdotDot, hlength] at h
  | case6 links d name rest parent entries hd hdot hdotDot hlength hid =>
    simp [walk, hd, hdot, hdotDot, hlength, hid] at h
  | case7 links d name rest parent entries hd hdot hdotDot hlength id hid parent' entries' hnode
      ih =>
    simp only [walk, hd, hdot, hdotDot, hlength, hid, hnode, if_false] at h
    have hentry : t.entry? d name = some id := by rw [FileTree.entry?, hd]; exact hid
    have hdir : t.isDirectory id := isDirectory_iff.mpr ⟨_, _, directory?_eq_some.mpr hnode⟩
    exact .down hdot hdotDot (Nat.le_of_not_lt hlength) hentry hdir (ih h)
  | case8 d name rest parent entries hd hdot hdotDot hlength id hid target hnode =>
    simp [walk, hd, hdot, hdotDot, hlength, hid, hnode] at h
  | case9 d name rest parent entries hd hdot hdotDot hlength id hid target hnode links ih =>
    simp only [Nat.succ_eq_add_one, walk, hd, hdot, hdotDot, hlength, hid, hnode, if_false] at h
    have hentry : t.entry? d name = some id := by rw [FileTree.entry?, hd]; exact hid
    exact .link hdot hdotDot (Nat.le_of_not_lt hlength) hentry hnode (ih h)
  | case10 links d name rest parent entries hd hdot hdotDot hlength id hid hnoDir hnoLink =>
    simp [walk, hd, hdot, hdotDot, hlength, hid] at h

theorem Leads.walk_eq {links d names r} (h : t.Leads links d names r) :
    t.walk links d names = .ok r := by
  induction h with
  | done => rw [walk]
  | dot hd _ ih =>
    obtain ⟨parent, entries, hentries⟩ := isDirectory_iff.mp hd
    simpa only [walk, hentries, if_true] using ih
  | dotDot hd _ ih =>
    have hne : Path.dotDot ≠ Path.dot := by decide
    simpa only [walk, hd, hne, if_false, if_true] using ih
  | @down links d name id rest r hdot hdotDot hlength hid hdir _ ih =>
    obtain ⟨parent, entries, hd⟩ := isDirectory_iff.mp (isDirectory_of_entry?_eq_some hid)
    obtain ⟨parent', entries', hentries⟩ := isDirectory_iff.mp hdir
    have hlookup : entries.lookup name = some id := by simpa only [FileTree.entry?, hd] using hid
    have hlength' : ¬ nameLimit < name.length := Nat.not_lt_of_le hlength
    simpa only [walk, hd, hdot, hdotDot, hlength', hlookup, directory?_eq_some.mp hentries,
      if_false] using ih
  | @link links d name id target rest r hdot hdotDot hlength hid hlink _ ih =>
    obtain ⟨parent, entries, hd⟩ := isDirectory_iff.mp (isDirectory_of_entry?_eq_some hid)
    have hlookup : entries.lookup name = some id := by simpa only [FileTree.entry?, hd] using hid
    have hlength' : ¬ nameLimit < name.length := Nat.not_lt_of_le hlength
    simpa only [walk, hd, hdot, hdotDot, hlength', hlookup, hlink, if_false] using ih

/-- The walks that succeed are the derivations. -/
theorem walk_eq_ok_iff {links d names r} :
    t.walk links d names = .ok r ↔ t.Leads links d names r :=
  ⟨Leads.of_walk, Leads.walk_eq⟩

/-- What segments lead to is determined. -/
theorem Leads.unique {links d names r r'} (h : t.Leads links d names r)
    (h' : t.Leads links d names r') : r = r' := by
  have := h.walk_eq.symm.trans h'.walk_eq
  exact Except.ok.inj this

theorem Sound.isDirectory_start (t : Sound) {d : NodeId} (hd : t.isDirectory d)
    (p : Path) : t.isDirectory (t.start d p) := by
  unfold start
  split
  · exact t.wellFormed.root
  · exact hd

/-- Paths start from directories. -/
theorem Sound.isDirectory_start_current (t : Sound) (p : Path) :
    t.isDirectory (t.start t.current p) :=
  t.isDirectory_start t.wellFormed.current p

/-- A walk from a directory ends in a directory. -/
theorem Leads.isDirectory_end {t : Sound} {links d names r} (h : t.Leads links d names r)
    (hd : t.isDirectory d) : t.isDirectory r.1 := by
  induction h with
  | done => exact hd
  | dot hd _ ih => exact ih hd
  | dotDot hparent _ ih => exact ih (t.wellFormed.parent hparent)
  | down _ _ _ _ hdir _ ih => exact ih hdir
  | link _ _ _ _ _ _ ih => exact ih (t.isDirectory_start hd _)

/-- A walk in a tree in which nothing but some entries have changed is a walk in the tree before: if
it came to a new entry, it would have to pass a file. -/
theorem Leads.of_sameExcept {t : Sound} {after : FileTree} {changed : NodeId → Name → Prop}
    (hsame : t.SameExcept after changed) {links d names r} (h : after.Leads links d names r)
    (hd : t.isDirectory d) : t.Leads links d names r := by
  -- an entry on the way names a directory or a link, so it is not a new one
  have hold : ∀ {d name id}, after.entry? d name = some id → after.file? id = none →
      t.entry? d name = some id := by
    intro d name id hid hfile
    refine (hsame.file d name id hid).resolve_right ?_
    simp [hfile]
  induction h with
  | done => exact .done
  | dot _ _ ih => exact .dot hd (ih hd)
  | @dotDot links d parent entries rest r hparent _ ih =>
    obtain ⟨parent', entries', hentries⟩ := isDirectory_iff.mp hd
    obtain ⟨entries'', hentries''⟩ := hsame.directory d parent' entries' hentries
    rw [hparent] at hentries''
    cases hentries''
    exact .dotDot hentries (ih (t.wellFormed.parent hentries))
  | @down links d name id rest r hdot hdotDot hlength hid hdir _ ih =>
    have hid' := hold hid (file?_eq_none_of_isDirectory hdir)
    rw [hsame.isDirectory_eq (t.wellFormed.closed hid')] at hdir
    exact .down hdot hdotDot hlength hid' hdir (ih hdir)
  | @link links d name id target rest r hdot hdotDot hlength hid hlink _ ih =>
    have hid' := hold hid (by rw [file?, hlink])
    -- no link is rewritten, so this one says where it said to go
    rw [hsame.node?_eq (t.wellFormed.closed hid') (isDirectory_of_node? hlink)] at hlink
    have hstart : after.start d target = t.start d target := by rw [start, start, hsame.root]
    rw [hstart] at ih
    exact .link hdot hdotDot hlength hid' hlink (ih (t.isDirectory_start hd target))

end FileTree

end LinearLight
