import Mathlib.Data.List.Infix
import LinearLight.Delivery
import LinearLight.Proofs.AtomicWrite.Trace
import LinearLight.Proofs.Sink

/-!
# One artifact at its destination

What becomes of the tree and of standard output when contents are brought to one destination: at the
end, and at every moment on the way.

## Main definitions

- `Destination.target?`, `Destination.share`, `Destination.Holds`: what a destination stands for,
  and what it is to hold
- `FileTree.Sound.delivered`: the tree that a delivery leaves
- `Delivered`: what a delivery does, however it ends
- `Moment`, `deliverMoments`: the tree and the output at every moment of a delivery

## Main statements

- `delivered_deliver`: every delivery does no more and no less
- `getLast?_deliverMoments`: the moments end with what is left
- `of_mem_deliverMoments`: nothing but a beginning of the contents is there at any moment
-/

namespace LinearLight

variable {t : FileTree} {destination : Destination} {contents : Bytes}

namespace Destination

/-- The entry that a destination names in a tree, if it is a file. -/
def target? (t : FileTree) : Destination → Option (NodeId × Name)
  | stdout => none
  | file path => t.namedEntry? path

/-- What of some contents is meant for standard output. -/
def share (contents : Bytes) : Destination → Bytes
  | stdout => contents
  | file _ => []

/-- The contents are complete at their destination: on standard output, or under the entry that the
path named in the tree at the start. -/
def Holds (t tree : FileTree) (output contents : Bytes) : Destination → Prop
  | stdout => output = contents
  | file path => ∃ entry, t.namedEntry? path = some entry ∧
      tree.fileAt? entry = some ⟨contents, writtenMode, true⟩

end Destination

/-- What a delivery does, however it ends: nothing in the tree is changed but the entry that the
destination names, and that only for the complete contents. -/
structure Delivered (t : FileTree) (destination : Destination) (contents : Bytes) (d : Delivery) :
    Prop where
  same : t.SameExcept d.tree fun dir name => destination.target? t = some (dir, name) ∧
    d.tree.fileAt? (dir, name) = some ⟨contents, writtenMode, true⟩
  stdout : d.stdout <+: destination.share contents
  ok : d.result = .ok () → destination.Holds t d.tree d.stdout contents
  error : ∀ {e}, d.result = .error e → d.tree = t

/-- The tree that a delivery leaves. -/
def FileTree.Sound.delivered (t : FileTree.Sound) (destination : Destination) (contents : Bytes)
    (files : List Answer) (answers : Answers) : FileTree.Sound where
  toFileTree := (deliver t destination contents files answers).tree
  wellFormed := by
    cases destination with
    | stdout => exact t.wellFormed
    | file path => exact (t.saved path contents files).wellFormed

/-- A delivery that succeeds, on whatever tree, has put on standard output all that is meant for
it. -/
theorem stdout_deliver_of_ok {files : List Answer} {answers : Answers}
    (h : (deliver t destination contents files answers).result = .ok ()) :
    (deliver t destination contents files answers).stdout = destination.share contents := by
  cases destination with
  | stdout => exact accepted_writeTo_of_ok (mapError_eq_ok.mp h)
  | file path => rfl

theorem delivered_deliver (t : FileTree.Sound) (files : List Answer) (answers : Answers) :
    Delivered t destination contents (deliver t destination contents files answers) := by
  cases destination with
  | stdout =>
    refine ⟨.refl t _, accepted_writeTo_isPrefix _ _ _, fun hok => ?_, fun _ => rfl⟩
    exact accepted_writeTo_of_ok (mapError_eq_ok.mp hok)
  | file path =>
    have hbegun : (AtomicWrite.begin t path contents).stage = .creating := rfl
    cases hresult : (AtomicWrite.begin t path contents).run t files with
    | mk result after =>
      simp only [deliver, FileTree.save, hresult]
      cases result with
      | error e =>
        have heq := AtomicWrite.eq_of_run_error hbegun (congrArg Prod.fst hresult)
        rw [hresult] at heq
        obtain rfl : after = t := heq
        exact ⟨.refl _ _, List.prefix_rfl, nofun, fun _ => rfl⟩
      | ok _ =>
        obtain ⟨d, name, hentry, heq, hreplaced⟩ :=
          AtomicWrite.replaced_of_run_ok hbegun (congrArg Prod.fst hresult)
        rw [hresult] at heq hreplaced
        obtain rfl : after = _ := heq
        -- one entry is replaced, and it is the one that the path names
        refine ⟨hreplaced.others.mono ?_, List.prefix_rfl, ?_, nofun⟩
        · rintro d' name' ⟨rfl, rfl⟩
          exact ⟨hentry, hreplaced.fileAt?⟩
        · exact fun _ => ⟨(d, name), hentry, hreplaced.fileAt?⟩

/-- The tree, and what has been put on standard output. -/
structure Moment where
  tree : FileTree
  stdout : Bytes

/-- The moments of a delivery: after each call on the tree, or after each byte put on standard
output. -/
def deliverMoments (t : FileTree) (destination : Destination) (contents : Bytes)
    (files : List Answer) (answers : Answers) : List Moment :=
  match destination with
  | .stdout =>
    (writeTo answers.stdout answers.stdoutFlush contents).accepted.inits.map fun output =>
      ⟨t, output⟩
  | .file path =>
    ((AtomicWrite.begin t path contents).trees t files).map fun tree => ⟨tree, []⟩

theorem getLast?_inits {α : Type} (l : List α) : l.inits.getLast? = some l := by
  rw [List.getLast?_eq_getElem?, List.length_inits, Nat.add_sub_cancel,
    List.getElem?_eq_getElem (by simp), List.getElem_inits, List.take_length]

/-- The moments of a delivery end with what it leaves. -/
theorem getLast?_deliverMoments (files : List Answer) (answers : Answers) :
    let d := deliver t destination contents files answers
    (deliverMoments t destination contents files answers).getLast? = some ⟨d.tree, d.stdout⟩ := by
  cases destination with
  | stdout =>
    simp only [deliverMoments, deliver, List.getLast?_map, getLast?_inits]
    rfl
  | file path =>
    simp only [deliverMoments, deliver, List.getLast?_map, AtomicWrite.getLast?_trees]
    rfl

/-- At every moment of a delivery, nothing has changed but entries that hold a beginning of the
contents, and standard output has got a beginning of what is meant for it. -/
theorem of_mem_deliverMoments {t : FileTree.Sound} {files : List Answer} {answers : Answers}
    {m : Moment} (hm : m ∈ deliverMoments t destination contents files answers) :
    (t.SameExcept m.tree fun dir name =>
      ∃ f, m.tree.fileAt? (dir, name) = some f ∧ f.data <+: contents) ∧
    m.stdout <+: destination.share contents := by
  cases destination with
  | stdout =>
    obtain ⟨output, houtput, rfl⟩ := List.mem_map.mp hm
    refine ⟨.refl t _, ?_⟩
    exact ((List.mem_inits _ _).mp houtput).trans (accepted_writeTo_isPrefix _ _ _)
  | file path =>
    obtain ⟨tree, htree, rfl⟩ := List.mem_map.mp hm
    obtain ⟨v, -, hcontents, h⟩ := AtomicWrite.undisturbed_of_mem_trees rfl htree
    refine ⟨?_, List.prefix_rfl⟩
    have hsame := h.sameExcept
    rw [hcontents] at hsame
    exact hsame

end LinearLight
