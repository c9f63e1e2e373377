import LinearLight.Proofs.FileTree.NamedEntry

/-!
# How a path ends

What stands behind the last slash of a path decides whether a file can be moved to it. A name there
is the last segment for everyone who reads the path; nothing at all, a dot or two dots are no name
that can be given.

## Main definitions

- `Path.ending`: the text behind the last slash
- `Path.EndsInName`: that text is a name

## Main statements

- `Path.bytes_eq_append_ending`: the ending is a part of the path as written
- `Path.last_eq_name_iff`: the paths whose last segment is a name, without a slash behind it
- `FileTree.endsInName_of_renameTarget`: a file is moved to such paths only
-/

namespace LinearLight

namespace Path

variable (p : Path)

/-- The text behind the last slash; the whole path if there is none. -/
def ending : Name := p.segments.getLast p.segments_ne_nil

/-- The text behind the last slash is a name that an entry can have. -/
def EndsInName : Prop := p.ending ≠ [] ∧ p.ending ≠ dot ∧ p.ending ≠ dotDot

theorem segments_eq_append_ending : p.segments = p.segments.dropLast ++ [p.ending] :=
  (List.dropLast_concat_getLast p.segments_ne_nil).symm

/-- The text behind the last slash is what is left of the path when all up to that slash is taken
away. -/
theorem bytes_eq_append_ending :
    ∃ front, p.bytes = front ++ p.ending ∧ slash ∉ p.ending ∧
      (front = [] ∨ front.getLast? = some slash) := by
  have hslash : slash ∉ p.ending :=
    p.slash_not_mem_of_mem_segments (List.getLast_mem p.segments_ne_nil)
  have hbytes : p.bytes = unsplit slash (p.segments.dropLast ++ [p.ending]) := by
    rw [← p.segments_eq_append_ending]
    exact (unsplit_split slash p.bytes).symm
  by_cases hfront : p.segments.dropLast = []
  · rw [hfront] at hbytes
    exact ⟨[], hbytes, hslash, .inl rfl⟩
  · rw [unsplit_concat slash hfront] at hbytes
    exact ⟨unsplit slash p.segments.dropLast ++ [slash], by simpa using hbytes, hslash,
      .inr (by simp)⟩

/-- There is nothing behind the last slash of a path that is empty or ends in a slash. -/
theorem ending_eq_nil_iff : p.ending = [] ↔ p.isEmpty = true ∨ p.endsInSlash = true := by
  obtain ⟨front, hbytes, hslash, hfront⟩ := p.bytes_eq_append_ending
  rw [isEmpty, endsInSlash, List.isEmpty_iff, decide_eq_true_eq, hbytes]
  constructor
  · intro hending
    rw [hending, List.append_nil]
    exact hfront
  · rintro (hempty | hlast)
    · exact (List.append_eq_nil_iff.mp hempty).2
    · by_contra hending
      rw [List.getLast?_append, List.getLast?_eq_some_getLast hending, Option.some_or] at hlast
      exact hslash (List.mem_of_getLast? ((List.getLast?_eq_some_getLast hending).trans hlast))

/-- Segments that are not empty end as the path does, if there is anything behind its last slash. -/
theorem getLast?_names (h : p.ending ≠ []) : p.names.getLast? = some p.ending := by
  rw [names, p.segments_eq_append_ending, List.filter_append, List.filter_cons_of_pos (by simpa)]
  exact List.getLast?_concat

/-- The last segment of a path is a name, without a slash behind it, just when the text behind the
last slash is one. -/
theorem last_eq_name_iff {name : Name} :
    Last.ofNames p.names = .name name ∧ p.endsInSlash = false ↔
      p.EndsInName ∧ p.ending = name := by
  rw [FileTree.Last.ofNames_eq_name_iff]
  constructor
  · rintro ⟨⟨hlast, hdot, hdotDot⟩, hslash⟩
    have hending : p.ending ≠ [] := by
      rw [Ne, p.ending_eq_nil_iff, hslash]
      rintro (hempty | hslash)
      · -- an empty path has no segments that are not empty
        have hbytes : p.bytes = [] := List.isEmpty_iff.mp hempty
        simp [names, segments, hbytes, split] at hlast
      · cases hslash
    obtain rfl : p.ending = name := Option.some.inj ((p.getLast?_names hending).symm.trans hlast)
    exact ⟨⟨hending, hdot, hdotDot⟩, rfl⟩
  · rintro ⟨⟨hending, hdot, hdotDot⟩, rfl⟩
    refine ⟨⟨p.getLast?_names hending, hdot, hdotDot⟩, ?_⟩
    rw [Ne, p.ending_eq_nil_iff, not_or, Bool.not_eq_true, Bool.not_eq_true] at hending
    exact hending.2

end Path

/-- A path that a file can be moved to ends, as it is written, in the name that is replaced. -/
theorem FileTree.endsInName_of_renameTarget {t : FileTree} {p : Path} {d : NodeId} {name : Name}
    (h : t.renameTarget p = .ok (d, name)) : p.EndsInName ∧ p.ending = name := by
  obtain ⟨hlocate, -, -⟩ := renameTarget_eq_ok_iff.mp h
  obtain ⟨-, d', left, -, hlocation⟩ := locate_eq_ok_iff.mp hlocate
  injection hlocation with _ hlast hslash
  exact p.last_eq_name_iff.mp ⟨hlast.symm, hslash.symm⟩

end LinearLight
