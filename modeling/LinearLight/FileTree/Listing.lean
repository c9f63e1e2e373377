import LinearLight.FileTree.Operations

/-!
# Listings

All entries below the current directory, with what they are, in the order of their paths. Links are
listed and not followed. A file that may not be read cannot be listed.

## Main definitions

- `Listing`: one listed entry
- `FileTree.listing`: all of them
-/

namespace LinearLight

inductive Listed where
  | directory
  | link (target : Path)
  | file (mode : Nat) (data : Bytes)
  | device
deriving DecidableEq

/-- A listed entry, under its path below the directory listed. -/
structure Listing where
  path : Bytes
  listed : Listed
deriving DecidableEq

/-- Whether one sequence of bytes comes before another one or equals it, in the order of the first
byte that differs. -/
def bytesLe : Bytes → Bytes → Bool
  | [], _ => true
  | _ :: _, [] => false
  | a :: as, b :: bs => if a = b then bytesLe as bs else decide (a < b)

namespace FileTree

/-- The entries below a directory, down to a depth, in no particular order. -/
def listingBelow (t : FileTree) : (depth : Nat) → (directory : NodeId) → (above : Bytes) →
    Except Errno (List Listing)
  | 0, _, _ => .ok []
  | depth + 1, directory, above =>
    match t.directory? directory with
    | none => .ok []
    | some (_, entries) => do
      let parts ← entries.mapM fun (name, id) => do
        let path := above ++ name
        match t.node? id with
        | none => return []
        | some (.directory ..) =>
          return ⟨path, .directory⟩ :: (← t.listingBelow depth id (path ++ [Path.slash]))
        | some (.link target) => return [⟨path, .link target⟩]
        | some .fullDevice => return [⟨path, .device⟩]
        | some (.file f) =>
          if allows f.mode ownerRead then return [⟨path, .file f.mode f.data⟩]
          else throw Errno.permissionDenied
      return parts.flatten

/-- All entries below the current directory. No tree is deeper than it has nodes. -/
def listing (t : FileTree) : Except Errno (List Listing) := do
  let entries ← t.listingBelow t.nodes.length t.current []
  return entries.mergeSort fun a b => bytesLe a.path b.path

end FileTree

end LinearLight
