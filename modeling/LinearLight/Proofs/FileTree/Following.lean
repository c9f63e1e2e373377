import LinearLight.Proofs.FileTree.Persistence

/-!
# What paths lead to when links at their end are followed

Following a path is a derivation, too: its segments but the last lead to a directory, and the last
one is looked up there; if it names a link, what the link says is followed from that directory on.
In a tree that has got more entries a path leads to the same node, and to one that has come to be
where there was none.

## Main definitions

- `FileTree.Ends`: a path that ends in a name in some directory
- `FileTree.Follows`: the paths that can be followed, and to what
- `FileTree.Extends`: a tree that has all that another one has
- `FileTree.Target.Becomes`: the node that is there now

## Main statements

- `FileTree.followFrom_eq_ok_iff`: what can be followed are the derivations
- `FileTree.Follows.extend`: paths followed in a tree that has more
- `FileTree.Follows.not_creating`: a path that can be followed to make a file can be followed
-/

namespace LinearLight.FileTree

variable {t after : FileTree} {creating : Bool}

/-- The segments of a path but the last lead to a directory, and the last is a name that can be
looked up there. -/
structure Ends (t : FileTree) (creating : Bool) (links : Nat) (d : NodeId) (slash : Bool) (p : Path)
    (d' : NodeId) (left : Nat) (name : Name) : Prop where
  leads : t.Leads links (t.start d p) p.names.dropLast (d', left)
  last : Last.ofNames p.names = .name name
  slash : (creating && (slash || p.endsInSlash)) = false
  length : name.length ≤ nameLimit

/-- A path leads from a directory to a target, links at its end followed. -/
inductive Follows (t : FileTree) (creating : Bool) :
    Nat → NodeId → Bool → Path → Target → Prop where
  | here {links d slash p d' left}
      (hleads : t.Leads links (t.start d p) p.names.dropLast (d', left))
      (hlast : Last.ofNames p.names = .root ∨ Last.ofNames p.names = .dot) :
      Follows t creating links d slash p (.node d')
  | above {links d slash p d' left parent entries}
      (hleads : t.Leads links (t.start d p) p.names.dropLast (d', left))
      (hlast : Last.ofNames p.names = .dotDot)
      (hparent : t.directory? d' = some (parent, entries)) :
      Follows t creating links d slash p (.node parent)
  | absent {links d slash p d' left name} (h : t.Ends creating links d slash p d' left name)
      (hid : t.entry? d' name = none) : Follows t creating links d slash p (.absent d' name)
  /-- A slash at the end asks for a directory. -/
  | there {links d slash p d' left name id} (h : t.Ends creating links d slash p d' left name)
      (hid : t.entry? d' name = some id) (hlink : ∀ target, t.node? id ≠ some (.link target))
      (hslash : (slash || p.endsInSlash) = true → t.isDirectory id) :
      Follows t creating links d slash p (.node id)
  | link {links d slash p d' left name id target result}
      (h : t.Ends creating links d slash p d' (left + 1) name) (hid : t.entry? d' name = some id)
      (hlink : t.node? id = some (.link target))
      (hfollows : Follows t creating left d' (slash || p.endsInSlash) target result) :
      Follows t creating links d slash p result

theorem Follows.of_followFrom {links : Nat} {d : NodeId} {slash : Bool} {p : Path}
    {target : Target} (h : t.followFrom creating links d slash p = .ok target) :
    t.Follows creating links d slash p target := by
  -- each link that is followed leaves fewer links to follow
  induction links using Nat.strong_induction_on generalizing d slash p with
  | _ links ih =>
    rw [followFrom] at h
    split at h
    · cases h
    · next location left hlocate =>
      obtain ⟨d', hleads, rfl⟩ := locateFrom_eq_ok_iff.mp hlocate
      simp only at h
      split at h
      · next hlast =>
        cases h
        exact .here hleads (.inl hlast)
      · next hlast =>
        cases h
        exact .here hleads (.inr hlast)
      · next hlast =>
        split at h
        · next hparent =>
          cases h
          exact .above hleads hlast hparent
        · cases h
      · next name hlast =>
        split at h
        · cases h
        · next hslash =>
          split at h
          · cases h
          · next hlength =>
            have hends : t.Ends creating links d slash p d' left name :=
              ⟨hleads, hlast, Bool.not_eq_true _ ▸ hslash, Nat.le_of_not_lt hlength⟩
            split at h
            · next hid =>
              cases h
              exact .absent hends hid
            · next id hid =>
              split at h
              · next next hlink =>
                split at h
                · cases h
                · split at h
                  · next hless => exact .link hends hid hlink (ih _ hless h)
                  · cases h
              · next hnode =>
                cases h
                exact .there hends hid (by simp [hnode]) fun _ => isDirectory_of_node? hnode
              · next hlink _ =>
                split at h
                · cases h
                · next hfile =>
                  cases h
                  exact .there hends hid hlink fun htrue => absurd htrue hfile

theorem Follows.followFrom_eq {links : Nat} {d : NodeId} {slash : Bool} {p : Path} {target : Target}
    (h : t.Follows creating links d slash p target) :
    t.followFrom creating links d slash p = .ok target := by
  have hlocate {links d p d' left}
      (hleads : t.Leads links (t.start d p) p.names.dropLast (d', left)) :=
    locateFrom_eq_ok_iff.mpr ⟨d', hleads, rfl⟩
  induction h with
  | here hleads hlast =>
    rw [followFrom, hlocate hleads]
    obtain hlast | hlast := hlast <;> simp [hlast]
  | above hleads hlast hparent =>
    rw [followFrom, hlocate hleads]
    simp [hlast, hparent]
  | absent h hid =>
    rw [followFrom, hlocate h.leads]
    simp [h.last, h.slash, Nat.not_lt_of_le h.length, hid]
  | @there links d slash p d' left name id h hid hlink hslash =>
    rw [followFrom, hlocate h.leads]
    simp only [h.last, h.slash, Nat.not_lt_of_le h.length, hid, Bool.false_eq_true, if_false]
    split
    · next target hnode => exact absurd hnode (hlink target)
    · rfl
    · next hnode =>
      have hdir : t.isDirectory id = false := Bool.eq_false_iff.mpr fun hdir => by
        obtain ⟨parent, entries, hentries⟩ := isDirectory_iff.mp hdir
        exact hnode parent entries (directory?_eq_some.mp hentries)
      rw [if_neg fun htrue => by simp [hslash htrue] at hdir]
  | @link links d slash p d' left name id target result h hid hlink _ ih =>
    rw [followFrom, hlocate h.leads]
    have hless : left < links := h.leads.links_le
    simp [h.last, h.slash, Nat.not_lt_of_le h.length, hid, hlink, hless, ih]

/-- What can be followed are the derivations. -/
theorem followFrom_eq_ok_iff {links : Nat} {d : NodeId} {slash : Bool} {p : Path}
    {target : Target} :
    t.followFrom creating links d slash p = .ok target ↔
      t.Follows creating links d slash p target :=
  ⟨Follows.of_followFrom, Follows.followFrom_eq⟩

theorem follow_eq_ok_iff {p : Path} {target : Target} :
    t.follow creating p = .ok target ↔
      checkPath p = .ok () ∧ t.Follows creating linkLimit t.current false p target := by
  rw [follow, ← followFrom_eq_ok_iff]
  constructor
  · intro h
    obtain ⟨_, hcheck, h⟩ := bind_eq_ok.mp h
    exact ⟨hcheck, h⟩
  · rintro ⟨hcheck, h⟩
    rw [hcheck, ← h]
    rfl

/-- A path that can be followed to make a file can be followed: it does not end in a slash. -/
theorem Follows.not_creating {links : Nat} {d : NodeId} {slash : Bool} {p : Path} {target : Target}
    (h : t.Follows true links d slash p target) : t.Follows false links d slash p target := by
  have hends {links d slash p d' left name} (h : t.Ends true links d slash p d' left name) :
      t.Ends false links d slash p d' left name := { h with slash := rfl }
  induction h with
  | here hleads hlast => exact .here hleads hlast
  | above hleads hlast hparent => exact .above hleads hlast hparent
  | absent h hid => exact .absent (hends h) hid
  | there h hid hlink hslash => exact .there (hends h) hid hlink hslash
  | link h hid hlink _ ih => exact .link (hends h) hid hlink ih

theorem follow_not_creating {p : Path} {target : Target} (h : t.follow true p = .ok target) :
    t.follow false p = .ok target := by
  obtain ⟨hcheck, hfollows⟩ := follow_eq_ok_iff.mp h
  exact follow_eq_ok_iff.mpr ⟨hcheck, hfollows.not_creating⟩

/-! ### What a path leads to -/

/-- What a path leads to is a node of the tree, or a place in one of its directories. -/
def Target.InTree (t : FileTree) : Target → Prop
  | .node id => (t.node? id).isSome
  | .absent directory _ => t.isDirectory directory

/-- There is nothing where a path leads to nothing. -/
theorem Follows.entry?_eq_none {links : Nat} {d d' : NodeId} {slash : Bool} {p : Path} {name : Name}
    (h : t.Follows creating links d slash p (.absent d' name)) : t.entry? d' name = none := by
  generalize htarget : Target.absent d' name = target at h
  induction h with
  | absent _ hid =>
    cases htarget
    exact hid
  | link _ _ _ _ ih => exact ih htarget
  | _ => cases htarget

theorem entry?_of_follow {p : Path} {d : NodeId} {name : Name}
    (h : t.follow creating p = .ok (.absent d name)) : t.entry? d name = none :=
  (follow_eq_ok_iff.mp h).2.entry?_eq_none

theorem isSome_node?_of_isDirectory {d : NodeId} (hd : t.isDirectory d) : (t.node? d).isSome := by
  obtain ⟨parent, entries, h⟩ := isDirectory_iff.mp hd
  simp [directory?_eq_some.mp h]

theorem Follows.inTree {t : Sound} {links : Nat} {d : NodeId} {slash : Bool} {p : Path}
    {target : Target} (hd : t.isDirectory d) (h : t.Follows creating links d slash p target) :
    target.InTree t := by
  have hend {links d p r} (hd : t.isDirectory d)
      (hleads : t.Leads links (t.start d p) p.names.dropLast r) : t.isDirectory r.1 :=
    hleads.isDirectory_end (t.isDirectory_start hd p)
  induction h with
  | here hleads _ => exact isSome_node?_of_isDirectory (hend hd hleads)
  | above _ _ hparent => exact isSome_node?_of_isDirectory (t.wellFormed.parent hparent)
  | absent h _ => exact hend hd h.leads
  | there _ hid _ _ => exact t.wellFormed.closed hid
  -- a link at the end is followed from the directory that it lies in
  | link h _ _ _ ih => exact ih (hend hd h.leads)

theorem Sound.inTree_of_follow (t : Sound) {p : Path} {target : Target}
    (h : t.follow creating p = .ok target) : target.InTree t :=
  (follow_eq_ok_iff.mp h).2.inTree t.wellFormed.current

/-! ### Trees that have more -/

/-- A tree has the directories of another one where they were, its entries and its links, and no
new link in place of anything else. -/
structure Extends (t after : FileTree) : Prop where
  root : after.root = t.root
  current : after.current = t.current
  directory : ∀ d parent entries, t.directory? d = some (parent, entries) →
    ∃ entries', after.directory? d = some (parent, entries')
  entry : ∀ d name id, t.entry? d name = some id → after.entry? d name = some id
  link : ∀ id target, (t.node? id).isSome →
    (after.node? id = some (.link target) ↔ t.node? id = some (.link target))

/-- What a path led to is there now: the node that it led to, or at a place where one could be made
still nothing, or a file. -/
inductive Target.Becomes (after : FileTree) (creating : Bool) : Target → Target → Prop where
  | node {id} : Becomes after creating (.node id) (.node id)
  | absent {d name} (hid : after.entry? d name = none) :
      Becomes after creating (.absent d name) (.absent d name)
  | made {d name id f} (hcreating : creating = true) (hid : after.entry? d name = some id)
      (hfile : after.file? id = some f) : Becomes after creating (.absent d name) (.node id)

namespace Extends

theorem keepsDirectories (h : t.Extends after) : t.KeepsDirectories after :=
  ⟨h.root, h.directory, fun d name id hid _ => h.entry d name id hid⟩

theorem keepsLinks (h : t.Extends after) : t.KeepsLinks after :=
  fun d name id target hid hlink =>
    ⟨h.entry d name id hid, (h.link id target (by simp [hlink])).mpr hlink⟩

theorem leads (h : t.Extends after) {links d names r} (hleads : t.Leads links d names r) :
    after.Leads links d names r :=
  hleads.kept h.keepsDirectories (.inr h.keepsLinks)

theorem start_eq (h : t.Extends after) (d : NodeId) (p : Path) : after.start d p = t.start d p :=
  h.keepsDirectories.start_eq d p

theorem ends (h : t.Extends after) {links d slash p d' left name}
    (hends : t.Ends creating links d slash p d' left name) :
    after.Ends creating links d slash p d' left name :=
  { hends with leads := h.start_eq d p ▸ h.leads hends.leads }

end Extends

/-- New files under names that were not in use. -/
theorem SameExcept.toExtends {changed : NodeId → Name → Prop} (h : t.SameExcept after changed)
    (hunused : ∀ d name, changed d name → t.entry? d name = none) : t.Extends after where
  root := h.root
  current := h.current
  directory := h.directory
  entry d name id hid := by
    have hkept : ¬ changed d name := fun hc => by simp [hunused d name hc] at hid
    rw [h.entry d name hkept, hid]
  link id target hid := by
    obtain ⟨node, hnode⟩ := Option.isSome_iff_exists.mp hid
    cases hkind : node.isDirectory with
    | true =>
      -- a directory is no link, and stays a directory
      have hdir := h.isDirectory ((isDirectory_of_node? hnode).trans hkind)
      constructor
      · intro hlink
        simp [isDirectory_of_node? hlink, Node.isDirectory] at hdir
      · intro hlink
        rw [hnode] at hlink
        cases hlink
        cases hkind
    | false => rw [h.node id node hnode hkind, hnode]

/-- A path leads in a tree that has more to what has become of what it led to. -/
theorem Follows.extend {t : Sound} (hextends : t.Extends after) {links : Nat} {d : NodeId}
    {slash : Bool} {p : Path} {target target' : Target}
    (h : t.Follows creating links d slash p target)
    (hbecomes : target.Becomes after creating target') :
    after.Follows creating links d slash p target' := by
  induction h with
  | here hleads hlast =>
    cases hbecomes
    exact .here (hextends.start_eq _ _ ▸ hextends.leads hleads) hlast
  | above hleads hlast hparent =>
    cases hbecomes
    obtain ⟨entries', hparent'⟩ := hextends.directory _ _ _ hparent
    exact .above (hextends.start_eq _ _ ▸ hextends.leads hleads) hlast hparent'
  | absent h hid =>
    cases hbecomes with
    | absent hid' => exact .absent (hextends.ends h) hid'
    | made hcreating hid' hfile =>
      -- where a file may be made there is no slash at the end, so the file may be there
      have hslash := h.slash
      rw [hcreating, Bool.true_and] at hslash
      exact .there (hextends.ends h) hid' (by simp [file?_eq_some.mp hfile]) (by simp [hslash])
  | there h hid hlink hslash =>
    cases hbecomes
    refine .there (hextends.ends h) (hextends.entry _ _ _ hid) (fun target hlink' => ?_)
      fun htrue => hextends.keepsDirectories.isDirectory (hslash htrue)
    exact hlink target ((hextends.link _ target (t.wellFormed.closed hid)).mp hlink')
  | link h hid hlink _ ih =>
    exact .link (hextends.ends h) (hextends.entry _ _ _ hid)
      ((hextends.link _ _ (t.wellFormed.closed hid)).mpr hlink) (ih hbecomes)

theorem follow_extend {t : Sound} (hextends : t.Extends after) {p : Path}
    {target target' : Target} (h : t.follow creating p = .ok target)
    (hbecomes : target.Becomes after creating target') : after.follow creating p = .ok target' := by
  obtain ⟨hcheck, hfollows⟩ := follow_eq_ok_iff.mp h
  exact follow_eq_ok_iff.mpr ⟨hcheck, hextends.current ▸ hfollows.extend hextends hbecomes⟩

end LinearLight.FileTree
