import LinearLight.Path

/-!
# Destinations

An artifact goes to standard output, which a lone dash stands for, or to a file.

## Main definitions

- `Destination`: standard output or a file
- `Destination.ofArgument`: the destination that an argument names
- `Destination.same`: whether two destinations are taken for one
-/

namespace LinearLight

/-- Where an artifact goes. -/
inductive Destination where
  | stdout
  | file (path : Path)
deriving DecidableEq

namespace Destination

def dash : Bytes := [0x2D]

def ofArgument (argument : Bytes) : Destination :=
  if argument = dash then stdout else file ⟨argument⟩

def display : Destination → String
  | stdout => "<stdout>"
  | file path => path.display

/-- Whether two destinations are taken for one: files are when the components of their paths
agree. -/
def same : Destination → Destination → Bool
  | stdout, stdout => true
  | file a, file b => a.components = b.components
  | _, _ => false

end Destination

end LinearLight
