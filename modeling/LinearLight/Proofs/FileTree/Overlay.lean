import LinearLight.Proofs.FileTree.Frame
import Mathlib.Logic.Function.Basic

/-!
# Trees with files laid over them

Two trees are the same to whoever looks at them when they have the same directories, every name
shows the same in both, and the same names stand for one node. The numbers of files do not show. A
tree with new files under some names is determined by what is under which name, so it does not
matter in what order the files came there, and which others were there in between.

## Main definitions

- `FileTree.Shown`, `FileTree.shown?`: what a name shows
- `FileTree.Same`: trees that are the same but for the numbers of files
- `FileTree.Overlaid`: a tree with new files under some names, each of them with that name only

## Main statements

- `FileTree.Overlaid.place`: one more file
- `FileTree.Overlaid.same_of_overlaid`: the files determine the tree
-/

namespace LinearLight.FileTree

/-- What a name shows of its node: that it is a certain directory, or else the node itself. -/
inductive Shown where
  | directory (id : NodeId)
  | node (node : Node)
deriving DecidableEq

def shownNode? (t : FileTree) (id : NodeId) : Option Shown :=
  (t.node? id).map fun node => if node.isDirectory then .directory id else .node node

def shown? (t : FileTree) (entry : NodeId × Name) : Option Shown :=
  (t.entry? entry.1 entry.2).bind t.shownNode?

/-- Two trees with the same directories, in which every name shows the same: which directory, or
what kind of node, with its link target or its permissions and data. Names of one node in the one
tree are names of one node in the other. -/
structure Same (t other : FileTree) : Prop where
  root : other.root = t.root
  current : other.current = t.current
  currentPath : other.currentPath = t.currentPath
  parent : ∀ d, (other.directory? d).map Prod.fst = (t.directory? d).map Prod.fst
  shown : ∀ entry, other.shown? entry = t.shown? entry
  linked : ∀ a b : NodeId × Name, other.entry? a.1 a.2 = other.entry? b.1 b.2 ↔
    t.entry? a.1 a.2 = t.entry? b.1 b.2

/-- A tree with new files under some names. Each of them has no other name, and none stands where a
directory stood. -/
structure Overlaid (t after : FileTree) (files : NodeId × Name → Option File) : Prop where
  wellFormed : after.WellFormed
  same : t.SameExcept after fun d name => (files (d, name)).isSome
  isDirectory : ∀ d, after.isDirectory d = t.isDirectory d
  file : ∀ {entry f}, files entry = some f → after.fileAt? entry = some f
  unshared : ∀ {entry other}, (files entry).isSome →
    after.entry? other.1 other.2 = after.entry? entry.1 entry.2 → other = entry

variable {t after after' : FileTree} {files : NodeId × Name → Option File}

namespace Overlaid

theorem refl {t : Sound} : t.Overlaid t fun _ => none where
  wellFormed := t.wellFormed
  same := .refl t _
  isDirectory _ := rfl
  file := nofun
  unshared := nofun

/-- The tree with the files. -/
abbrev tree (h : t.Overlaid after files) : Sound := ⟨after, h.wellFormed⟩

/-- One more file is laid over a tree, or over one that was laid there before. -/
theorem place (h : t.Overlaid after files) {d : NodeId} {name : Name} (hd : after.isDirectory d)
    (hname : ∀ id, after.entry? d name = some id → after.isDirectory id = false) (f : File) :
    t.Overlaid (after.place d name (.file f)) (Function.update files (d, name) (some f)) := by
  have hreplaced := replaced_place hd hname f
  have hentry (entry : NodeId × Name) :
      FileTree.entry? (after.place d name (.file f)) entry.1 entry.2 =
        if entry = (d, name) then some after.fresh else after.entry? entry.1 entry.2 := by
    rw [entry?_place name hd rfl]
    simp only [Prod.ext_iff]
  refine ⟨(h.tree.placed d name (.file f) rfl).wellFormed, ?_, ?_, ?_, ?_⟩
  · refine (h.same.trans hreplaced.others).mono ?_
    rintro d' name' (hold | ⟨rfl, rfl⟩)
    · by_cases heq : (d', name') = (d, name)
      · simp [heq]
      · rwa [Function.update_of_ne heq]
    · simp
  · intro other
    rw [isDirectory_place name rfl, h.isDirectory]
  · intro entry g hg
    by_cases heq : entry = (d, name)
    · rw [heq, Function.update_self] at hg
      rw [heq, ← hg]
      exact hreplaced.fileAt?
    · rw [Function.update_of_ne heq] at hg
      exact hreplaced.others.fileAt? (fun hc => heq (Prod.ext hc.1 hc.2)) (h.file hg)
  · -- the new number stands under no other name
    intro entry other hsome hshared
    rw [hentry, hentry] at hshared
    by_cases heq : entry = (d, name)
    · rw [heq, if_pos rfl] at hshared
      rw [heq]
      by_contra hne
      rw [if_neg hne] at hshared
      exact h.tree.entry?_ne_fresh _ _ hshared
    · rw [Function.update_of_ne heq] at hsome
      rw [if_neg heq] at hshared
      by_cases hother : other = (d, name)
      · rw [if_pos hother] at hshared
        exact absurd hshared.symm (h.tree.entry?_ne_fresh _ _)
      · rw [if_neg hother] at hshared
        exact h.unshared hsome hshared

/-! ### What shows -/

theorem shown?_of_file (h : t.Overlaid after files) {entry : NodeId × Name} {f : File}
    (hf : files entry = some f) : after.shown? entry = some (.node (.file f)) := by
  obtain ⟨id, hid, hfile⟩ := fileAt?_eq_some.mp (h.file hf)
  simp [shown?, hid, shownNode?, file?_eq_some.mp hfile, Node.isDirectory]

theorem entry?_of_none (h : t.Overlaid after files) {entry : NodeId × Name}
    (hnone : files entry = none) : after.entry? entry.1 entry.2 = t.entry? entry.1 entry.2 :=
  h.same.entry entry.1 entry.2 (by simp [hnone])

/-- A node of the tree below shows as it does there. -/
theorem shownNode?_eq (h : t.Overlaid after files) {id : NodeId} (hid : (t.node? id).isSome) :
    after.shownNode? id = t.shownNode? id := by
  obtain ⟨node, hnode⟩ := Option.isSome_iff_exists.mp hid
  obtain ⟨node', hnode'⟩ := Option.isSome_iff_exists.mp (h.same.isSome_node? hnode)
  have hkind : node'.isDirectory = node.isDirectory := by
    rw [← isDirectory_of_node? hnode', h.isDirectory, isDirectory_of_node? hnode]
  rw [shownNode?, shownNode?, hnode, hnode', Option.map_some, Option.map_some, hkind]
  cases hdir : node.isDirectory with
  | true => rfl
  | false =>
    rw [h.same.node id node hnode hdir] at hnode'
    rw [Option.some.inj hnode']

theorem shown?_of_none {t : Sound} (h : t.Overlaid after files) {entry : NodeId × Name}
    (hnone : files entry = none) : after.shown? entry = t.shown? entry := by
  rw [shown?, shown?, h.entry?_of_none hnone]
  exact Option.bind_congr fun id hid => h.shownNode?_eq (t.wellFormed.closed hid)

/-- Names are shared where they were shared and nothing has been laid over them. -/
theorem linked_iff (h : t.Overlaid after files) (a b : NodeId × Name) :
    after.entry? a.1 a.2 = after.entry? b.1 b.2 ↔
      a = b ∨ files a = none ∧ files b = none ∧ t.entry? a.1 a.2 = t.entry? b.1 b.2 := by
  constructor
  · intro hshared
    by_cases ha : files a = none
    · by_cases hb : files b = none
      · rw [h.entry?_of_none ha, h.entry?_of_none hb] at hshared
        exact .inr ⟨ha, hb, hshared⟩
      · exact .inl (h.unshared (Option.isSome_iff_ne_none.mpr hb) hshared)
    · exact .inl (h.unshared (Option.isSome_iff_ne_none.mpr ha) hshared.symm).symm
  · rintro (rfl | ⟨ha, hb, hshared⟩)
    · rfl
    · rw [h.entry?_of_none ha, h.entry?_of_none hb, hshared]

/-- No directory is new and none is moved. -/
theorem parent_eq (h : t.Overlaid after files) (d : NodeId) :
    (after.directory? d).map Prod.fst = (t.directory? d).map Prod.fst := by
  cases hd : t.directory? d with
  | some directory =>
    obtain ⟨entries', hd'⟩ := h.same.directory d directory.1 directory.2 hd
    rw [hd']
    rfl
  | none =>
    have hnone : after.directory? d = none := by
      rw [← Option.not_isSome_iff_eq_none, ← FileTree.isDirectory, h.isDirectory,
        FileTree.isDirectory, hd]
      exact Bool.false_ne_true
    rw [hnone]

/-- Two trees with the same files laid over one tree are the same. -/
theorem same_of_overlaid {t : Sound} (h : t.Overlaid after files)
    (h' : t.Overlaid after' files) : after.Same after' where
  root := h'.same.root.trans h.same.root.symm
  current := h'.same.current.trans h.same.current.symm
  currentPath := h'.same.currentPath.trans h.same.currentPath.symm
  parent d := (h'.parent_eq d).trans (h.parent_eq d).symm
  shown entry := by
    cases hf : files entry with
    | some f => rw [h.shown?_of_file hf, h'.shown?_of_file hf]
    | none => rw [h.shown?_of_none hf, h'.shown?_of_none hf]
  linked a b := (h'.linked_iff a b).trans (h.linked_iff a b).symm

end Overlaid

end LinearLight.FileTree
