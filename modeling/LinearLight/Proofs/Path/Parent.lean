import Mathlib.Data.List.TakeWhile
import LinearLight.AtomicWrite
import LinearLight.Proofs.Split

/-!
# The parent of a path, segment by segment

The parent of a path is cut from its text. Read segment by segment, and with the blank segments left
out, it is the path without its last segment; and it starts where the path starts.

## Main statements

- `Path.filter_segments_stagingDirectory`: the segments of the directory that a staging file is
  made in
- `Path.isAbsolute_stagingDirectory`
- `Path.hasZeroByte_stagingDirectory`
-/

namespace LinearLight

namespace Path

variable (p : Path)

theorem segments_ne_nil : p.segments ≠ [] := split_ne_nil slash p.bytes

theorem slash_not_mem_of_mem_segments {segment : Bytes} (h : segment ∈ p.segments) :
    slash ∉ segment :=
  not_mem_of_mem_split h

/-! ### Blank segments -/

theorem dropBlanks_isPrefix (segments : List Bytes) : dropBlanks segments <+: segments := by
  rw [dropBlanks, ← List.reverse_suffix, List.reverse_reverse]
  exact List.dropWhile_suffix _

/-- Only blank segments are dropped. -/
theorem filter_dropBlanks (segments : List Bytes) :
    (dropBlanks segments).filter (!isBlank ·) = segments.filter (!isBlank ·) := by
  have hblank : (segments.reverse.takeWhile isBlank).filter (!isBlank ·) = [] := by
    rw [List.filter_eq_nil_iff]
    intro segment hsegment
    simpa using List.mem_takeWhile_imp hsegment
  have h := congrArg (List.filter (!isBlank ·))
    (List.takeWhile_append_dropWhile (p := isBlank) (l := segments.reverse))
  rw [List.filter_append, hblank, List.nil_append] at h
  rw [dropBlanks, List.filter_reverse, h, ← List.filter_reverse, List.reverse_reverse]

theorem not_isBlank_getLast_dropBlanks {segments : List Bytes} (h : dropBlanks segments ≠ []) :
    isBlank ((dropBlanks segments).getLast h) = false := by
  have hne : segments.reverse.dropWhile isBlank ≠ [] := by
    intro e
    exact h (by rw [dropBlanks, e]; rfl)
  have := List.head_dropWhile_not isBlank hne
  simpa [dropBlanks] using this

/-- The last segment that is not blank goes when the last one does. -/
theorem filter_dropLast_dropBlanks (segments : List Bytes) :
    (dropBlanks segments).dropLast.filter (!isBlank ·) =
      (segments.filter (!isBlank ·)).dropLast := by
  by_cases h : dropBlanks segments = []
  · rw [← filter_dropBlanks segments, h]
    rfl
  · have hlast := not_isBlank_getLast_dropBlanks h
    have hsplit := List.dropLast_concat_getLast h
    generalize (dropBlanks segments).getLast h = last at hlast hsplit
    rw [← filter_dropBlanks segments, ← hsplit, List.filter_append]
    simp [hlast]

/-! ### Heads and bodies -/

theorem filter_body : p.body.filter (!isBlank ·) = p.segments.filter (!isBlank ·) := by
  obtain ⟨first, more, hsegments⟩ := List.exists_cons_of_ne_nil p.segments_ne_nil
  unfold body head
  rw [hsegments]
  by_cases hdot : first = dot
  · simp [hdot, isBlank]
  · by_cases hroot : first.isEmpty && !more.isEmpty
    · obtain ⟨hempty, hmore⟩ := Bool.and_eq_true_iff.mp hroot
      have hblank : isBlank first = true := by simp [isBlank, hempty]
      simp [hdot, hroot, hblank]
    · simp [hdot, hroot]

theorem components_names : p.components.names = p.segments.filter (!isBlank ·) := p.filter_body

theorem body_subset {segment : Bytes} (h : segment ∈ p.body) : segment ∈ p.segments := by
  unfold body at h
  split at h
  · exact h
  · exact List.mem_of_mem_tail h

theorem mem_segments_of_mem_dropLast_body {segment : Bytes}
    (h : segment ∈ dropBlanks (dropBlanks p.body).dropLast) : segment ∈ p.segments :=
  p.body_subset ((dropBlanks_isPrefix _).subset
    (List.dropLast_subset _ ((dropBlanks_isPrefix _).subset h)))

theorem head_eq_root_iff : p.head = .root ↔ p.isAbsolute = true := by
  obtain ⟨bytes⟩ := p
  unfold head isAbsolute segments
  cases bytes with
  | nil => decide
  | cons b rest =>
    obtain ⟨first, more, hsplit⟩ := List.exists_cons_of_ne_nil (split_ne_nil slash rest)
    -- a slash in front makes the first segment empty, with another one behind it
    by_cases hb : b = slash
    · subst hb
      have hdot : ([] : Bytes) ≠ dot := by decide
      simp [split, hdot, hsplit]
    · simp only [split, hb, if_false, hsplit, List.head?_cons, Option.some.injEq]
      by_cases hdot : b :: first = dot <;> simp [hdot]

/-! ### The parent -/

/-- The segments of a path that is put together from a head and segments. -/
theorem filter_segments_ofBody (head : Head) {body : List Bytes}
    (h : ∀ segment ∈ body, slash ∉ segment) :
    (ofBody head body).segments.filter (!isBlank ·) = body.filter (!isBlank ·) := by
  have hsplit : (split slash (unsplit slash body)).filter (!isBlank ·) =
      body.filter (!isBlank ·) := by
    by_cases hbody : body = []
    · subst hbody
      decide
    · rw [split_unsplit hbody h]
  cases head with
  | plain => exact hsplit
  | root =>
    rw [← hsplit, ofBody, segments, split, if_pos rfl]
    exact List.filter_cons_of_neg (by decide)
  | here =>
    have hdot : ∀ segment ∈ dot :: body, slash ∉ segment := by
      intro segment hsegment
      rcases List.mem_cons.mp hsegment with rfl | hsegment
      · decide
      · exact h segment hsegment
    rw [ofBody, segments, split_unsplit (by simp) hdot]
    exact List.filter_cons_of_neg (by decide)

/-- The blank segments left out, the directory of a staging file has the segments of the path but
the last. -/
theorem filter_segments_stagingDirectory :
    p.stagingDirectory.segments.filter (!isBlank ·) = p.components.names.dropLast := by
  have hdot : (Path.mk dot).segments.filter (!isBlank ·) = [] := by decide
  have hparent : ∀ parent, p.parent? = some parent →
      parent.segments.filter (!isBlank ·) = p.components.names.dropLast := by
    intro parent hparent
    rw [components, ← filter_dropLast_dropBlanks p.body,
      ← filter_dropBlanks (dropBlanks p.body).dropLast]
    unfold parent? at hparent
    have hslash : ∀ segment ∈ dropBlanks (dropBlanks p.body).dropLast, slash ∉ segment :=
      fun segment hsegment =>
        p.slash_not_mem_of_mem_segments (p.mem_segments_of_mem_dropLast_body hsegment)
    split at hparent
    · cases hparent
    · cases hparent
    · next hbody =>
      cases hparent
      rw [hbody]
      decide
    · cases hparent
      exact filter_segments_ofBody p.head hslash
  unfold stagingDirectory
  cases hp : p.parent? with
  | none =>
    have hblank : dropBlanks p.body = [] := by
      unfold parent? at hp
      split at hp <;> simp_all
    simp only [hdot]
    rw [components, ← filter_dropLast_dropBlanks p.body, hblank]
    rfl
  | some parent =>
    rw [← hparent parent hp]
    -- an empty parent and a lone dot are both without segments that count
    by_cases hempty : parent.isEmpty
    · have hbytes : parent = ⟨[]⟩ := by
        obtain ⟨bytes⟩ := parent
        simpa [isEmpty] using hempty
      simp only [hempty, if_true, hdot]
      rw [hbytes]
      decide
    · simp [hempty]

/-- A path without a head is relative, and so is a path of its first segments. -/
theorem isAbsolute_ofBody_plain (h : p.head = .plain) {body : List Bytes}
    (hbody : body <+: p.body) :
    (ofBody .plain body).isAbsolute = false := by
  have hsegments : p.body = p.segments := by rw [Path.body, h]
  rw [hsegments] at hbody
  cases body with
  | nil => decide
  | cons first more =>
    obtain ⟨rest, hrest⟩ := hbody
    have hfirst : slash ∉ first :=
      p.slash_not_mem_of_mem_segments (hrest ▸ List.mem_cons_self)
    cases first with
    | nil =>
      -- the path starts with an empty segment, so there is no other one
      have hmore : more ++ rest = [] := by
        have hdot : ([] : Bytes) ≠ dot := by decide
        rw [head, ← hrest] at h
        by_contra hne
        simp [hdot] at h
        simp_all
      rw [(List.append_eq_nil_iff.mp hmore).1]
      decide
    | cons b first =>
      have hb : b ≠ slash := fun e => hfirst (e ▸ List.mem_cons_self)
      cases more <;> simpa [ofBody, unsplit, isAbsolute] using hb

/-- A path that names something has its staging files under the directory that it starts from. -/
theorem isAbsolute_stagingDirectory (h : p.components.names ≠ []) :
    p.stagingDirectory.isAbsolute = p.isAbsolute := by
  have hbody : dropBlanks p.body ≠ [] := by
    intro e
    apply h
    rw [components, ← filter_dropBlanks, e]
    rfl
  have hparent : p.parent? = some (ofBody p.head (dropBlanks (dropBlanks p.body).dropLast)) := by
    unfold parent?
    split <;> simp_all
  have hroot := p.head_eq_root_iff
  rw [stagingDirectory, hparent]
  cases hhead : p.head with
  | root =>
    have habsolute := hroot.mp hhead
    rw [habsolute]
    simp [ofBody, isEmpty, isAbsolute]
  | here =>
    have habsolute : p.isAbsolute = false := by
      rw [← Bool.not_eq_true, ← hroot, hhead]
      simp
    rw [habsolute]
    cases dropBlanks (dropBlanks p.body).dropLast with
    | nil => decide
    | cons first more => simp [ofBody, unsplit, isEmpty, isAbsolute, dot, slash]
  | plain =>
    have habsolute : p.isAbsolute = false := by
      rw [← Bool.not_eq_true, ← hroot, hhead]
      simp
    have hprefix : dropBlanks (dropBlanks p.body).dropLast <+: p.body :=
      (dropBlanks_isPrefix _).trans ((List.dropLast_prefix _).trans (dropBlanks_isPrefix _))
    rw [habsolute]
    by_cases hempty : (ofBody .plain (dropBlanks (dropBlanks p.body).dropLast)).isEmpty
    · simp only [hempty, if_true]
      decide
    · simpa only [hempty, Bool.false_eq_true, if_false]
        using p.isAbsolute_ofBody_plain hhead hprefix

/-! ### Zero bytes -/

theorem hasZeroByte_eq_false_iff : p.hasZeroByte = false ↔ 0 ∉ p.bytes := by
  rw [hasZeroByte, ← Bool.not_eq_true, List.contains_iff_mem]

/-- The directory of a staging file is the current one, or is put together from segments of the
path. -/
theorem stagingDirectory_cases : p.stagingDirectory = ⟨dot⟩ ∨
    p.stagingDirectory = ofBody p.head (dropBlanks (dropBlanks p.body).dropLast) := by
  unfold stagingDirectory parent?
  split
  · next parent hparent =>
    split at hparent
    · cases hparent
    · cases hparent
    · cases hparent
      exact .inl rfl
    · cases hparent
      split
      · exact .inl rfl
      · exact .inr rfl
  · exact .inl rfl

/-- The directory of a staging file has no zero byte that the path does not have. -/
theorem hasZeroByte_stagingDirectory (h : p.hasZeroByte = false) :
    p.stagingDirectory.hasZeroByte = false := by
  rw [hasZeroByte_eq_false_iff] at h ⊢
  have hslash : (0 : UInt8) ≠ slash := by decide
  have hdot : (0 : UInt8) ∉ dot := by decide
  have hsegments : ∀ segment ∈ p.segments, 0 ∉ segment := by
    intro segment hsegment hzero
    apply h
    rw [← unsplit_split slash p.bytes, mem_unsplit_iff hslash]
    exact ⟨segment, hsegment, hzero⟩
  obtain hdirectory | hdirectory := p.stagingDirectory_cases
  · rw [hdirectory]
    exact hdot
  · have hbody : ∀ segment ∈ dropBlanks (dropBlanks p.body).dropLast, 0 ∉ segment :=
      fun segment hsegment => hsegments segment (p.mem_segments_of_mem_dropLast_body hsegment)
    rw [hdirectory]
    cases p.head <;> simp_all [ofBody, mem_unsplit_iff]

theorem hasZeroByte_join {base p : Path} (hbase : base.hasZeroByte = false)
    (hp : p.hasZeroByte = false) : (base.join p).hasZeroByte = false := by
  rw [hasZeroByte_eq_false_iff] at hbase hp ⊢
  have hslash : (0 : UInt8) ≠ slash := by decide
  unfold join
  split
  · exact hp
  · split <;> simp [hbase, hp, hslash]

end Path

end LinearLight
