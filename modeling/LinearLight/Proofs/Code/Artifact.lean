import LinearLight.Code.Artifact
import LinearLight.Proofs.Bytes

/-!
# The texts of the artifacts

Pieces of text are rendered one after the other, so an artifact begins with its first piece. The
header and the source differ there already, whatever the tables.

## Main statements

- `Code.toList_joinLines`: the characters of lines
- `Code.render_cons`: a piece and those after it
- `Code.bytesOf_header_ne_source`
-/

namespace LinearLight.Code

theorem toList_joinLines (lines : List String) :
    (joinLines lines).toList = (lines.map String.toList).flatMap (· ++ ['\n']) := by
  rw [joinLines, String.toList_join, List.flatMap_map, List.flatMap_map]
  simp only [String.toList_append]
  rfl

theorem joinLines_append (first second : List String) :
    joinLines (first ++ second) = joinLines first ++ joinLines second := by
  rw [joinLines, List.map_append, String.join_append, joinLines, joinLines]

theorem render_cons (item : Item) (items : List Item) :
    render (item :: items) = joinLines item.lines ++ render items := by
  rw [render, List.flatMap_cons, joinLines_append, render]

/-- The header begins with a pragma. -/
theorem take_bytesOf_header : (bytesOf header).take 2 = [0x23, 0x70] := by
  rw [header, headerItems, render_cons, bytesOf_append, bytesOf_eq_flatMap]
  rfl

/-- The source begins with an inclusion. -/
theorem take_bytesOf_source (tables : Tables) :
    (bytesOf (source tables)).take 2 = [0x23, 0x69] := by
  rw [source, sourceItems, render_cons, bytesOf_append, bytesOf_eq_flatMap]
  rfl

theorem bytesOf_header_ne_source (tables : Tables) : bytesOf header ≠ bytesOf (source tables) := by
  intro h
  have htake := take_bytesOf_header
  rw [h, take_bytesOf_source] at htake
  exact absurd htake (by decide)

end LinearLight.Code
