import LinearLight.Tables

/-!
# Working on tables

One current pair of tables, at first all zero, and copies of it put aside under names.

## Main definitions

- `Workspace`: the current tables and the named copies
- `Edit`: a change to a workspace
- `Workspace.after?`, `Workspace.afterAll?`: the workspace after a change, and after several
-/

namespace LinearLight

/-- The current tables, and copies of earlier ones by name, the latest first. -/
structure Workspace where
  current : Tables := .zero
  saved : List (String × Tables) := []

/-- A change to the current tables or to the copies. -/
inductive Edit where
  | build
  | fromLinear16 (linear16 : Vector UInt16 256)
  | rederive
  | set16 (v : UInt8) (entry : UInt16)
  | set8 (v : UInt8) (entry : UInt8)
  | save (name : String)
  | load (name : String)

namespace Workspace

def saved? (w : Workspace) (name : String) : Option Tables := w.saved.lookup name

/-- The workspace after a change. Only loading a name that was never saved is impossible. -/
def after? (w : Workspace) : Edit → Option Workspace
  | .build => some { w with current := .ofCurve }
  | .fromLinear16 linear16 => some { w with current := .ofLinear16 linear16 }
  | .rederive => some { w with current := w.current.rederive }
  | .set16 v entry => some { w with current := w.current.set16 v entry }
  | .set8 v entry => some { w with current := w.current.set8 v entry }
  | .save name => some { w with saved := (name, w.current) :: w.saved }
  | .load name => (w.saved? name).map fun t => { w with current := t }

/-- The workspace after changes in sequence. -/
def afterAll? (w : Workspace) (edits : List Edit) : Option Workspace := edits.foldlM after? w

end Workspace

end LinearLight
