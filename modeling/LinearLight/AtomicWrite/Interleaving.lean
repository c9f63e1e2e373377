import LinearLight.AtomicWrite

/-!
# Writes at the same time

Any number of writes on one tree. A schedule says whose call comes next and how the system answers
it. A write that the rest of a schedule does not mention has crashed where it stands. Other than a
write that has the tree for itself, one among others may fail to take its staging file away.

## Main definitions

- `AtomicWrite.stepOrLeave`: a step that may leave the staging file behind
- `Concurrent`: writes and the tree they share
- `Concurrent.run`: the state that a schedule leads to
-/

namespace LinearLight

/-- One call, answered by the system. If it fails to take the staging file away, the write is over
all the same and the file is left. -/
def AtomicWrite.stepOrLeave (w : AtomicWrite) (t : FileTree) (answer : Answer) :
    AtomicWrite × FileTree :=
  match w.stage, answer with
  | .abandoning _ error, .fail _ => ({ w with stage := .finished (.error error) }, t)
  | _, _ => w.step t answer

structure Concurrent where
  tree : FileTree
  writes : List AtomicWrite

/-- Whose call comes next, and how the system answers it. -/
abbrev Schedule := List (Nat × Answer)

namespace Concurrent

/-- The state after one call of one write. -/
def step (s : Concurrent) (turn : Nat × Answer) : Concurrent :=
  match s.writes[turn.1]? with
  | none => s
  | some w =>
    let (w, tree) := w.stepOrLeave s.tree turn.2
    ⟨tree, s.writes.set turn.1 w⟩

/-- The state that a schedule leads to. -/
def run (s : Concurrent) (schedule : Schedule) : Concurrent := schedule.foldl step s

end Concurrent

end LinearLight
