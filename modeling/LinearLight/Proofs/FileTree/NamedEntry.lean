import LinearLight.Proofs.FileTree.Resolution
import LinearLight.Proofs.Path.Parent

/-!
# The entry that a path names

A path names its last component in the directory that its parent leads to. The parent is cut from
the text of the path, while a file moved to the path goes where the system's own walk ends. The two
differ for some spellings, but never where the move succeeds.

## Main definitions

- `FileTree.namedEntry?`: the entry that a path names

## Main statements

- `FileTree.SameExcept.namedEntry?`: changed entries make no path name anything new
- `FileTree.renameTarget_eq_ok_iff`: the paths that a file can be moved to
- `FileTree.Sound.namedEntry?_of_renameTarget`: such a path names the entry that is replaced
-/

namespace LinearLight

/-- The dots left out, the segments that a walk takes are the components. -/
theorem Path.filter_names (p : Path) : p.names.filter (· ≠ Path.dot) = p.components.names := by
  rw [Path.components_names, Path.names, List.filter_filter]
  refine List.filter_congr fun segment _ => ?_
  simp [Path.isBlank, Bool.and_comm]

/-- A walk to the directory of a staging file takes, but for dots, the components but the last. -/
theorem Path.filter_names_stagingDirectory (p : Path) :
    p.stagingDirectory.names.filter (· ≠ Path.dot) = p.components.names.dropLast := by
  rw [Path.filter_names, Path.components_names, p.filter_segments_stagingDirectory]

/-- A path that ends in something else than a dot has it as its last component. -/
theorem Path.components_names_of_getLast? (p : Path) {name : Name}
    (hlast : p.names.getLast? = some name) (hdot : name ≠ Path.dot) :
    p.components.names = p.names.dropLast.filter (· ≠ Path.dot) ++ [name] := by
  obtain ⟨front, hfront⟩ := List.getLast?_eq_some_iff.mp hlast
  rw [← p.filter_names, hfront, List.dropLast_concat, List.filter_append,
    List.filter_cons_of_pos (by simpa using hdot)]
  rfl

namespace FileTree

variable {t : FileTree}

/-- The entry that a path names: its last component, in the directory that its parent leads to. -/
def namedEntry? (t : FileTree) (p : Path) : Option (NodeId × Name) :=
  match t.resolveDirectory p.stagingDirectory with
  | .ok directory => p.components.names.getLast?.map (directory, ·)
  | .error _ => none

/-! ### Dots on the way -/

/-- Dots lead from a directory to itself. -/
theorem Leads.dots_append {links d r} {dots rest : List Name} (hd : t.isDirectory d)
    (hdots : ∀ name ∈ dots, name = Path.dot) (h : t.Leads links d rest r) :
    t.Leads links d (dots ++ rest) r := by
  induction dots with
  | nil => exact h
  | cons name more ih =>
    obtain rfl : name = Path.dot := hdots name List.mem_cons_self
    exact .dot hd (ih fun name hname => hdots name (List.mem_cons_of_mem _ hname))

/-- Segments that begin, but for dots, with a name. -/
theorem exists_dots_of_filter_eq_cons {names rest : List Name} {name : Name}
    (h : names.filter (· ≠ Path.dot) = name :: rest) :
    ∃ dots more, names = dots ++ name :: more ∧ (∀ other ∈ dots, other = Path.dot) ∧
      more.filter (· ≠ Path.dot) = rest := by
  obtain ⟨dots, more, rfl, hdots, -, hmore⟩ := List.filter_eq_cons_iff.mp h
  exact ⟨dots, more, rfl, fun other hother => by simpa using hdots other hother, hmore⟩

/-- Segments that differ in dots only lead to the same directory. -/
theorem Leads.congr_dots {t : Sound} {links d names r} (h : t.Leads links d names r)
    (hd : t.isDirectory d) {names' : List Name}
    (hnames : names.filter (· ≠ Path.dot) = names'.filter (· ≠ Path.dot)) :
    t.Leads links d names' r := by
  -- by induction on the derivation; the other sequence is cut before its first proper segment
  induction h generalizing names' with
  | done =>
    have hdots := List.filter_eq_nil_iff.mp hnames.symm
    rw [← List.append_nil names']
    exact .dots_append hd (fun name hname => by simpa using hdots name hname) .done
  | dot _ _ ih => exact ih hd (by simpa using hnames)
  | @dotDot links d parent entries rest r hparent _ ih =>
    have hne : Path.dotDot ≠ Path.dot := by decide
    rw [List.filter_cons_of_pos (by simpa using hne)] at hnames
    obtain ⟨dots, more, rfl, hdots, hmore⟩ := exists_dots_of_filter_eq_cons hnames.symm
    exact .dots_append hd hdots (.dotDot hparent (ih (t.wellFormed.parent hparent) hmore.symm))
  | @down links d name id rest r hdot hdotDot hlength hid hdir _ ih =>
    rw [List.filter_cons_of_pos (by simpa using hdot)] at hnames
    obtain ⟨dots, more, rfl, hdots, hmore⟩ := exists_dots_of_filter_eq_cons hnames.symm
    exact .dots_append hd hdots (.down hdot hdotDot hlength hid hdir (ih hdir hmore.symm))
  | @link links d name id target rest r hdot hdotDot hlength hid hlink _ ih =>
    rw [List.filter_cons_of_pos (by simpa using hdot)] at hnames
    obtain ⟨dots, more, rfl, hdots, hmore⟩ := exists_dots_of_filter_eq_cons hnames.symm
    refine .dots_append hd hdots (.link hdot hdotDot hlength hid hlink ?_)
    exact ih (t.isDirectory_start hd target)
      (by rw [List.filter_append, List.filter_append, hmore])

/-! ### Directories that paths lead to -/

theorem resolveDirectory_eq_ok_iff {p : Path} {d : NodeId} :
    t.resolveDirectory p = .ok d ↔
      checkPath p = .ok () ∧
        ∃ left, t.Leads linkLimit (t.start t.current p) p.names (d, left) := by
  rw [resolveDirectory]
  constructor
  · intro h
    obtain ⟨_, hcheck, h⟩ := bind_eq_ok.mp h
    obtain ⟨⟨d', left⟩, hwalk, h⟩ := bind_eq_ok.mp h
    cases h
    exact ⟨hcheck, left, walk_eq_ok_iff.mp hwalk⟩
  · rintro ⟨hcheck, left, hleads⟩
    rw [hcheck, hleads.walk_eq]
    rfl

theorem Sound.isDirectory_of_resolveDirectory (t : Sound) {p : Path} {d : NodeId}
    (h : t.resolveDirectory p = .ok d) : t.isDirectory d := by
  obtain ⟨-, left, hleads⟩ := resolveDirectory_eq_ok_iff.mp h
  exact hleads.isDirectory_end (t.isDirectory_start_current p)

section Changed

variable {after : FileTree} {changed : NodeId → Name → Prop}

theorem SameExcept.start_eq (h : t.SameExcept after changed) (p : Path) :
    after.start after.current p = t.start t.current p := by
  rw [start, start, h.root, h.current]

/-- Changed entries make no path lead to another directory. -/
theorem SameExcept.resolveDirectory {t : Sound} (h : t.SameExcept after changed) {p : Path}
    {d : NodeId} (hd : after.resolveDirectory p = .ok d) : t.resolveDirectory p = .ok d := by
  obtain ⟨hcheck, left, hleads⟩ := resolveDirectory_eq_ok_iff.mp hd
  rw [h.start_eq] at hleads
  have hstart := t.isDirectory_start_current p
  exact resolveDirectory_eq_ok_iff.mpr ⟨hcheck, left, hleads.of_sameExcept h hstart⟩

end Changed

theorem namedEntry?_eq_some_iff {p : Path} {d : NodeId} {name : Name} :
    t.namedEntry? p = some (d, name) ↔
      t.resolveDirectory p.stagingDirectory = .ok d ∧
        p.components.names.getLast? = some name := by
  unfold namedEntry?
  split
  · next d' hd' =>
    rw [hd', Option.map_eq_some_iff]
    constructor
    · rintro ⟨last, hlast, heq⟩
      cases heq
      exact ⟨rfl, hlast⟩
    · rintro ⟨heq, hlast⟩
      cases heq
      exact ⟨name, hlast, rfl⟩
  · next e he => simp [he]

theorem Sound.isDirectory_of_namedEntry?_eq_some (t : Sound) {p : Path} {d : NodeId}
    {name : Name} (h : t.namedEntry? p = some (d, name)) : t.isDirectory d :=
  t.isDirectory_of_resolveDirectory (namedEntry?_eq_some_iff.mp h).1

/-- Changed entries make no path name anything new. -/
theorem SameExcept.namedEntry? {t : Sound} {after : FileTree}
    {changed : NodeId → Name → Prop} (h : t.SameExcept after changed) {p : Path}
    {entry : NodeId × Name} (hentry : after.namedEntry? p = some entry) :
    t.namedEntry? p = some entry := by
  obtain ⟨d, name⟩ := entry
  obtain ⟨hd, hlast⟩ := namedEntry?_eq_some_iff.mp hentry
  exact namedEntry?_eq_some_iff.mpr ⟨h.resolveDirectory hd, hlast⟩

/-! ### Paths that a file is moved to -/

theorem Last.ofNames_eq_name_iff {names : List Name} {name : Name} :
    Last.ofNames names = .name name ↔
      names.getLast? = some name ∧ name ≠ Path.dot ∧ name ≠ Path.dotDot := by
  unfold Last.ofNames
  cases names.getLast? with
  | none => simp
  | some last =>
    by_cases hdot : last = Path.dot
    · simp only [hdot, if_true, reduceCtorEq, Option.some.injEq, false_iff]
      rintro ⟨rfl, h, -⟩
      exact h rfl
    · by_cases hdotDot : last = Path.dotDot
      · have hne : Path.dotDot ≠ Path.dot := by decide
        simp only [hdotDot, hne, if_true, if_false, reduceCtorEq, Option.some.injEq, false_iff]
        rintro ⟨rfl, -, h⟩
        exact h rfl
      · simp only [hdot, hdotDot, if_false, Last.name.injEq, Option.some.injEq]
        constructor
        · rintro rfl
          exact ⟨rfl, hdot, hdotDot⟩
        · exact fun h => h.1

theorem locateFrom_eq_ok_iff {links left : Nat} {d : NodeId} {p : Path} {location : Location} :
    t.locateFrom links d p = .ok (location, left) ↔
      ∃ d', t.Leads links (t.start d p) p.names.dropLast (d', left) ∧
        location = ⟨d', .ofNames p.names, p.endsInSlash⟩ := by
  rw [locateFrom]
  constructor
  · intro h
    obtain ⟨⟨d', left'⟩, hwalk, h⟩ := bind_eq_ok.mp h
    cases h
    exact ⟨d', walk_eq_ok_iff.mp hwalk, rfl⟩
  · rintro ⟨d', hleads, rfl⟩
    rw [hleads.walk_eq]
    rfl

theorem locate_eq_ok_iff {p : Path} {location : Location} :
    t.locate p = .ok location ↔
      checkPath p = .ok () ∧
        ∃ d left, t.Leads linkLimit (t.start t.current p) p.names.dropLast (d, left) ∧
          location = ⟨d, .ofNames p.names, p.endsInSlash⟩ := by
  rw [locate]
  constructor
  · intro h
    obtain ⟨_, hcheck, h⟩ := bind_eq_ok.mp h
    obtain ⟨⟨location', left⟩, hfrom, h⟩ := bind_eq_ok.mp h
    cases h
    obtain ⟨d, hleads, rfl⟩ := locateFrom_eq_ok_iff.mp hfrom
    exact ⟨hcheck, d, left, hleads, rfl⟩
  · rintro ⟨hcheck, d, left, hleads, rfl⟩
    rw [hcheck, locateFrom_eq_ok_iff.mpr ⟨d, hleads, rfl⟩]
    rfl

/-- A file can be moved to a path that ends in a proper name, without a slash behind it, if its
segments but the last lead to a directory in which that name does not stand for a directory. -/
theorem renameTarget_eq_ok_iff {p : Path} {d : NodeId} {name : Name} :
    t.renameTarget p = .ok (d, name) ↔
      t.locate p = .ok ⟨d, .name name, false⟩ ∧ name.length ≤ nameLimit ∧
        ∀ id, t.entry? d name = some id → t.isDirectory id = false := by
  rw [renameTarget]
  constructor
  · intro h
    obtain ⟨⟨d', last, slash⟩, hlocate, h⟩ := bind_eq_ok.mp h
    cases last with
    | name last =>
      simp only at h
      split at h
      · cases h
      · next hlength =>
        split at h
        · cases h
        · next hslash =>
          obtain rfl : slash = false := by simpa using hslash
          split at h
          · next id hid =>
            split at h
            · cases h
            · next hdir =>
              cases h
              refine ⟨hlocate, Nat.le_of_not_lt hlength, fun id' hid' => ?_⟩
              rw [hid] at hid'
              cases hid'
              simpa using hdir
          · next hnone =>
            cases h
            exact ⟨hlocate, Nat.le_of_not_lt hlength, fun id hid => by simp [hnone] at hid⟩
    | _ => cases h
  · rintro ⟨hlocate, hlength, hentry⟩
    rw [hlocate]
    have hlength' : ¬ nameLimit < name.length := Nat.not_lt_of_le hlength
    simp only [bind, Except.bind, hlength', Bool.false_eq_true, if_false]
    cases hid : t.entry? d name with
    | none => rfl
    | some id =>
      simp only [hentry id hid, Bool.false_eq_true, if_false]
      rfl

/-- A move makes the target name the file, unless it does so already, and removes the old name. -/
theorem of_rename_eq_ok {d id : NodeId} {name : Name} {p : Path} {after : FileTree}
    (h : t.rename d name id p = .ok after) :
    ∃ d' name', t.renameTarget p = .ok (d', name') ∧
      after = if t.entry? d' name' = some id then t
        else (t.setEntry d' name' id).removeEntry d name := by
  obtain ⟨⟨d', name'⟩, htarget, h⟩ := bind_eq_ok.mp h
  refine ⟨d', name', htarget, ?_⟩
  by_cases hsame : t.entry? d' name' = some id
  · simp only [if_pos hsame] at h ⊢
    exact (Except.ok.inj h).symm
  · simp only [if_neg hsame] at h ⊢
    exact (Except.ok.inj h).symm

/-- A path that a file can be moved to ends in the name that is replaced. -/
theorem getLast?_of_renameTarget {p : Path} {d : NodeId} {name : Name}
    (h : t.renameTarget p = .ok (d, name)) :
    p.names.getLast? = some name ∧ name ≠ Path.dot := by
  obtain ⟨hlocate, -, -⟩ := renameTarget_eq_ok_iff.mp h
  obtain ⟨-, d', left, -, hlocation⟩ := locate_eq_ok_iff.mp hlocate
  have hlast : Last.ofNames p.names = .name name := (congrArg Location.last hlocation).symm
  obtain ⟨hlast, hdot, -⟩ := Last.ofNames_eq_name_iff.mp hlast
  exact ⟨hlast, hdot⟩

/-- Changed entries make no path name another location. -/
theorem SameExcept.locate {t : Sound} {after : FileTree} {changed : NodeId → Name → Prop}
    (h : t.SameExcept after changed) {p : Path} {location : Location}
    (hlocate : after.locate p = .ok location) : t.locate p = .ok location := by
  obtain ⟨hcheck, d, left, hleads, rfl⟩ := locate_eq_ok_iff.mp hlocate
  rw [h.start_eq] at hleads
  have hstart := t.isDirectory_start_current p
  exact locate_eq_ok_iff.mpr ⟨hcheck, d, left, hleads.of_sameExcept h hstart, rfl⟩

/-- Changed entries make no path a target that it was not. -/
theorem SameExcept.renameTarget {t : Sound} {after : FileTree}
    {changed : NodeId → Name → Prop} (h : t.SameExcept after changed) {p : Path}
    {target : NodeId × Name} (htarget : after.renameTarget p = .ok target) :
    t.renameTarget p = .ok target := by
  obtain ⟨d, name⟩ := target
  obtain ⟨hlocate, hlength, hentry⟩ := renameTarget_eq_ok_iff.mp htarget
  refine renameTarget_eq_ok_iff.mpr ⟨h.locate hlocate, hlength, fun id hid => ?_⟩
  cases hdir : t.isDirectory id with
  | false => rfl
  | true =>
    -- a directory would still be there under this name
    have := hentry id (h.subdirectory d name id hid hdir)
    simp [h.isDirectory hdir] at this

theorem Sound.isDirectory_of_renameTarget (t : Sound) {p : Path} {d : NodeId}
    {name : Name} (h : t.renameTarget p = .ok (d, name)) : t.isDirectory d := by
  obtain ⟨hlocate, -, -⟩ := renameTarget_eq_ok_iff.mp h
  obtain ⟨-, d', left, hleads, hlocation⟩ := locate_eq_ok_iff.mp hlocate
  obtain rfl : d = d' := congrArg Location.directory hlocation
  exact hleads.isDirectory_end (t.isDirectory_start_current p)

/-- A path that names something starts where the path of its staging directory does. -/
theorem start_stagingDirectory {p : Path} (h : p.components.names ≠ []) (d : NodeId) :
    t.start d p.stagingDirectory = t.start d p := by
  rw [start, start, p.isAbsolute_stagingDirectory h]

/-- The directory that a path's staging file goes to is the one in which a proper name at its end
stands: the walks there differ in dots only. -/
theorem Sound.leads_stagingDirectory_iff (t : Sound) {p : Path} {name : Name}
    (hlast : p.names.getLast? = some name) (hdot : name ≠ Path.dot) {r : NodeId × Nat} :
    t.Leads linkLimit (t.start t.current p.stagingDirectory) p.stagingDirectory.names r ↔
      t.Leads linkLimit (t.start t.current p) p.names.dropLast r := by
  have hcomponents := p.components_names_of_getLast? hlast hdot
  have hnames : p.stagingDirectory.names.filter (· ≠ Path.dot) =
      p.names.dropLast.filter (· ≠ Path.dot) := by
    rw [p.filter_names_stagingDirectory, hcomponents, List.dropLast_concat]
  have hd := t.isDirectory_start_current p
  rw [start_stagingDirectory (by simp [hcomponents])]
  exact ⟨fun h => h.congr_dots hd hnames, fun h => h.congr_dots hd hnames.symm⟩

/-- A file that is staged for a path and then moved to it stays in its directory, and replaces the
entry that the path names. -/
theorem Sound.namedEntry?_of_renameTarget (t : Sound) {p : Path} {d d' : NodeId}
    {name : Name} (hd : t.resolveDirectory p.stagingDirectory = .ok d)
    (h : t.renameTarget p = .ok (d', name)) : d' = d ∧ t.namedEntry? p = some (d, name) := by
  obtain ⟨hlast, hdot⟩ := getLast?_of_renameTarget h
  obtain ⟨hlocate, -, -⟩ := renameTarget_eq_ok_iff.mp h
  obtain ⟨-, d'', left, hleads, hlocation⟩ := locate_eq_ok_iff.mp hlocate
  obtain rfl : d' = d'' := congrArg Location.directory hlocation
  obtain ⟨-, left', hleads'⟩ := resolveDirectory_eq_ok_iff.mp hd
  have hsame := hleads.unique ((t.leads_stagingDirectory_iff hlast hdot).mp hleads')
  obtain rfl : d' = d := congrArg Prod.fst hsame
  have hcomponents := p.components_names_of_getLast? hlast hdot
  exact ⟨rfl, namedEntry?_eq_some_iff.mpr ⟨hd, by simp [hcomponents]⟩⟩

end FileTree

end LinearLight
