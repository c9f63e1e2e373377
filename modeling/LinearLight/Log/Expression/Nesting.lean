/-!
# How deep expressions are nested

Parts of an expression stand side by side or one inside another, and so do parts of a set. Parts
side by side make one more level, unless there is only one of them.

## Main definitions

- `Log.joined`: how deep parts are nested that stand side by side
- `Log.deepest`: how deep an expression may be nested
-/

namespace LinearLight.Log

/-- How deep parts are nested that stand side by side. -/
def joined : List Nat → Nat
  | [] => 0
  | [depth] => depth
  | depths => depths.foldr max 0 + 1

def deepest : Nat := 250

end LinearLight.Log
