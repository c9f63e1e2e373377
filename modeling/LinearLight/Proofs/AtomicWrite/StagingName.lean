import LinearLight.Proofs.Bytes
import LinearLight.Proofs.Decimal.Digits
import LinearLight.Proofs.FileTree.NamedEntry
import Mathlib.Data.List.Nodup
import Mathlib.Data.List.Perm.Subperm

/-!
# Names for staging files

The numbers tried give different names, so among one name more than are in use one is free, and the
first free one is taken. As long as one with six digits is free, the name taken is as short as any,
and whether the system takes the path of the staging file does not depend on the name.

## Main definitions

- `FileTree.namesInUse`: the names that a staging file must not get
- `FileTree.HasStagingRoom`: a staging name of the usual length is free

## Main statements

- `stagingName_injective`, `length_stagingName_le`
- `exists_stagingName_notMem`, `FileTree.exists_freeStagingName_eq`: the first name not in use
- `FileTree.entry?_freeStagingName`, `FileTree.HasStagingRoom.exists_freeStagingName_eq`
- `checkPath_stagingPath`: whether the system takes the path of a staging file
-/

namespace LinearLight

/-! ### The name for a number -/

/-- The bytes in front of the digits. -/
def stagingPrefix : Bytes := bytesOf ".tmp"

/-- The digits of a staging name, filled up with zeros. -/
def stagingNumeral (n : Nat) : List Char :=
  List.replicate (stagingDigits - (Decimal.digitsOf n).length) '0' ++ Decimal.digitsOf n

theorem stagingName_eq_append (n : Nat) :
    stagingName n = stagingPrefix ++ bytesOf (String.ofList (stagingNumeral n)) :=
  bytesOf_append _ _

theorem stagingName_eq (n : Nat) :
    stagingName n = stagingPrefix ++ (stagingNumeral n).flatMap String.utf8EncodeChar := by
  rw [stagingName_eq_append, bytesOf_eq_flatMap, String.toList_ofList]

theorem valueFrom?_stagingNumeral (n : Nat) :
    Decimal.valueFrom? 0 (stagingNumeral n) = some n := by
  rw [stagingNumeral, Decimal.valueFrom?_append, Decimal.valueFrom?_replicate_zero, Nat.zero_mul,
    Option.bind_some, ← Decimal.valueOf?_eq_valueFrom? (Decimal.digitsOf_ne_nil n),
    Decimal.valueOf?_digitsOf]

/-- The name tells the number. -/
theorem stagingName_injective : Function.Injective stagingName := by
  intro n m h
  rw [stagingName_eq_append, stagingName_eq_append, List.append_cancel_left_eq] at h
  have hnumeral : stagingNumeral n = stagingNumeral m := by
    simpa using congrArg String.toList (bytesOf_injective h)
  have hvalue := valueFrom?_stagingNumeral n
  rw [hnumeral, valueFrom?_stagingNumeral] at hvalue
  exact (Option.some.inj hvalue).symm

theorem isDigit_of_mem_stagingNumeral {n : Nat} {c : Char} (h : c ∈ stagingNumeral n) :
    '0' ≤ c ∧ c ≤ '9' := by
  obtain hzero | hdigit := List.mem_append.mp h
  · rw [List.eq_of_mem_replicate hzero]
    decide
  · exact Decimal.isDigit_of_mem_digitsOf hdigit

/-- A digit takes one byte, and not a zero byte. -/
theorem exists_utf8EncodeChar_eq {c : Char} (h : '0' ≤ c ∧ c ≤ '9') :
    ∃ b : UInt8, String.utf8EncodeChar c = [b] ∧ b ≠ 0 := by
  obtain ⟨d, hd, rfl⟩ := Decimal.exists_digitChar_eq h
  have hbyte : ∀ d < 10, String.utf8EncodeChar (Decimal.digitChar d) = [0x30 + UInt8.ofNat d] ∧
      0x30 + UInt8.ofNat d ≠ 0 := by
    decide
  exact ⟨_, hbyte d hd⟩

theorem length_stagingNumeral {n : Nat} (h : n < 10 ^ stagingDigits) :
    (stagingNumeral n).length = stagingDigits := by
  have hle : (Decimal.digitsOf n).length ≤ stagingDigits := by
    by_contra hlong
    have hne : n ≠ 0 := by
      rintro rfl
      rw [Decimal.digitsOf_of_lt (by decide)] at hlong
      exact hlong (by decide)
    have := Decimal.pow_le_of_lt_length hne (Nat.lt_of_not_le hlong)
    omega
  rw [stagingNumeral, List.length_append, List.length_replicate]
  omega

theorem le_length_stagingNumeral (n : Nat) : stagingDigits ≤ (stagingNumeral n).length := by
  rw [stagingNumeral, List.length_append, List.length_replicate]
  omega

theorem length_stagingName (n : Nat) : (stagingName n).length = 4 + (stagingNumeral n).length := by
  have hbytes {text : List Char} (hdigits : ∀ c ∈ text, '0' ≤ c ∧ c ≤ '9') :
      (text.flatMap String.utf8EncodeChar).length = text.length := by
    induction text with
    | nil => rfl
    | cons c text ih =>
      obtain ⟨hc, htext⟩ := List.forall_mem_cons.mp hdigits
      obtain ⟨b, hb, -⟩ := exists_utf8EncodeChar_eq hc
      rw [List.flatMap_cons, hb, List.length_append, ih htext, List.length_singleton,
        List.length_cons, Nat.add_comm]
  rw [stagingName_eq, List.length_append, hbytes fun c => isDigit_of_mem_stagingNumeral,
    stagingPrefix, bytesOf_eq_flatMap]
  rfl

/-- No name is shorter than one with six digits. -/
theorem length_stagingName_le {n : Nat} (h : n < 10 ^ stagingDigits) (m : Nat) :
    (stagingName n).length ≤ (stagingName m).length := by
  rw [length_stagingName, length_stagingName, length_stagingNumeral h]
  exact Nat.add_le_add_left (le_length_stagingNumeral m) 4

theorem zero_notMem_stagingName (n : Nat) : 0 ∉ stagingName n := by
  rw [stagingName_eq, List.mem_append, not_or, stagingPrefix, bytesOf_eq_flatMap]
  refine ⟨by decide, fun hzero => ?_⟩
  obtain ⟨c, hc, hzero⟩ := List.mem_flatMap.mp hzero
  obtain ⟨b, hb, hne⟩ := exists_utf8EncodeChar_eq (isDigit_of_mem_stagingNumeral hc)
  rw [hb, List.mem_singleton] at hzero
  exact hne hzero.symm

theorem head?_stagingName (n : Nat) : (stagingName n).head? = some 0x2E := by
  rw [stagingName_eq, stagingPrefix, bytesOf_eq_flatMap]
  rfl

/-! ### The path of a staging file -/

/-- The name of a staging file is the end of its path. -/
theorem exists_stagingPath_eq (p current : Path) :
    ∃ front, ∀ n, p.stagingPath current (stagingName n) = ⟨front ++ stagingName n⟩ := by
  have hrelative (n : Nat) : Path.isAbsolute ⟨stagingName n⟩ = false := by
    rw [Path.isAbsolute, head?_stagingName]
    decide
  simp only [Path.stagingPath]
  generalize current.join p.stagingDirectory = base
  by_cases hslash : (base.bytes.getLast? = some Path.slash || base.isEmpty) = true
  · exact ⟨base.bytes, fun n => by simp only [Path.join, hrelative, hslash, if_true]; rfl⟩
  · refine ⟨base.bytes ++ [Path.slash], fun n => ?_⟩
    rw [Path.join, if_neg (by simp [hrelative]), if_neg hslash, List.append_assoc]
    rfl

theorem isEmpty_stagingPath (p current : Path) (n : Nat) :
    (p.stagingPath current (stagingName n)).isEmpty = false := by
  obtain ⟨front, hfront⟩ := exists_stagingPath_eq p current
  have hhead := head?_stagingName n
  rw [hfront]
  cases hname : stagingName n with
  | nil => simp [hname] at hhead
  | cons first rest => simp [Path.isEmpty]

/-- Whether the system takes the path of a staging file depends on the name by its length only. -/
theorem checkPath_stagingPath {p current : Path} {n m : Nat}
    (hlength : (stagingName m).length ≤ (stagingName n).length)
    (h : FileTree.checkPath (p.stagingPath current (stagingName n)) = .ok ()) :
    FileTree.checkPath (p.stagingPath current (stagingName m)) = .ok () := by
  obtain ⟨front, hfront⟩ := exists_stagingPath_eq p current
  rw [FileTree.checkPath_eq_ok_iff] at h ⊢
  refine ⟨isEmpty_stagingPath p current m, ?_⟩
  rw [hfront] at h ⊢
  obtain ⟨-, hzero, hlimit⟩ := h
  constructor
  · rw [Path.hasZeroByte_eq_false_iff, List.mem_append, not_or] at hzero ⊢
    exact ⟨hzero.1, zero_notMem_stagingName m⟩
  · rw [List.length_append] at hlimit ⊢
    omega

/-! ### The first name that is not in use -/

/-- Of more staging names than are in use, one is not in use. -/
theorem exists_stagingName_notMem (used : List Name) :
    ∃ n < used.length + 1, stagingName n ∉ used := by
  by_contra hall
  have hsub : (List.range (used.length + 1)).map stagingName ⊆ used := by
    intro name hname
    obtain ⟨n, hn, rfl⟩ := List.mem_map.mp hname
    by_contra hfree
    exact hall ⟨n, List.mem_range.mp hn, hfree⟩
  have hnodup : ((List.range (used.length + 1)).map stagingName).Nodup :=
    List.Nodup.map stagingName_injective List.nodup_range
  have hle := (List.subperm_of_subset hnodup hsub).length_le
  rw [List.length_map, List.length_range] at hle
  omega

namespace FileTree

variable {t : FileTree} {p : Path}

/-- The names that a staging file for a path must not get. -/
def namesInUse (t : FileTree) (p : Path) : List Name := (t.stagingEntries p).map Prod.fst ++ p.names

/-- A name is taken that is not in use, and it is the first one. -/
theorem exists_freeStagingName_eq (t : FileTree) (p : Path) :
    ∃ n, t.freeStagingName p = stagingName n ∧ stagingName n ∉ t.namesInUse p ∧
      ∀ m, stagingName m ∉ t.namesInUse p → n ≤ m := by
  have hname : t.freeStagingName p =
      (((List.range ((t.namesInUse p).length + 1)).find?
        fun n => !(t.namesInUse p).contains (stagingName n)).map stagingName).getD
          (stagingName 0) := by
    rw [freeStagingName, List.find?_map]
    rfl
  rw [hname]
  cases hfound : (List.range ((t.namesInUse p).length + 1)).find?
      fun n => !(t.namesInUse p).contains (stagingName n) with
  | none =>
    obtain ⟨n, hn, hfree⟩ := exists_stagingName_notMem (t.namesInUse p)
    have hused := List.find?_eq_none.mp hfound n (List.mem_range.mpr hn)
    exact absurd (by simpa using hused) hfree
  | some n =>
    obtain ⟨hfree, hmem, hfirst⟩ := List.find?_range_eq_some.mp hfound
    refine ⟨n, rfl, by simpa using hfree, fun m hm => ?_⟩
    by_contra hlt
    exact hm (by simpa using hfirst m (Nat.lt_of_not_le hlt))

theorem mem_namesInUse_iff {d : NodeId} (hd : t.resolveDirectory p.stagingDirectory = .ok d)
    {name : Name} : name ∈ t.namesInUse p ↔ t.entry? d name ≠ none ∨ name ∈ p.names := by
  have hentries : name ∈ (t.stagingEntries p).map Prod.fst ↔ t.entry? d name ≠ none := by
    rw [stagingEntries, hd, FileTree.entry?]
    cases hdir : t.directory? d with
    | none => simp [hdir]
    | some directory =>
      obtain ⟨parent, entries⟩ := directory
      simp only [hdir, Option.map_some, Option.getD_some, ne_eq, List.lookup_eq_none_iff]
      simp
  rw [namesInUse, List.mem_append, hentries]

/-- A staging file is made under a name that is not in use. -/
theorem entry?_freeStagingName {d : NodeId}
    (hd : t.resolveDirectory p.stagingDirectory = .ok d) :
    t.entry? d (t.freeStagingName p) = none := by
  obtain ⟨n, hname, hfree, -⟩ := t.exists_freeStagingName_eq p
  rw [mem_namesInUse_iff hd, not_or, not_not] at hfree
  rw [hname, hfree.1]

/-- A staging name of the usual length is free for a path, and is none of some other names. -/
def HasStagingRoom (t : FileTree) (p : Path) (others : List Name) : Prop :=
  ∃ n < 10 ^ stagingDigits, stagingName n ∉ t.namesInUse p ∧ stagingName n ∉ others

namespace HasStagingRoom

variable {others : List Name}

/-- The name taken is no longer than any. -/
theorem exists_freeStagingName_eq (h : t.HasStagingRoom p others) :
    ∃ n, t.freeStagingName p = stagingName n ∧
      ∀ m, (stagingName n).length ≤ (stagingName m).length := by
  obtain ⟨m, hm, hfree, -⟩ := h
  obtain ⟨n, hname, -, hfirst⟩ := t.exists_freeStagingName_eq p
  exact ⟨n, hname, length_stagingName_le (Nat.lt_of_le_of_lt (hfirst m hfree) hm)⟩

/-- There is room after entries with other names have changed. -/
theorem congr (h : t.HasStagingRoom p others) {after : FileTree} {d : NodeId}
    (hd : t.resolveDirectory p.stagingDirectory = .ok d)
    (hd' : after.resolveDirectory p.stagingDirectory = .ok d)
    (hentry : ∀ name, name ∉ p.names → name ∉ others →
      after.entry? d name = t.entry? d name) : after.HasStagingRoom p others := by
  obtain ⟨n, hn, hfree, hothers⟩ := h
  refine ⟨n, hn, ?_, hothers⟩
  rw [mem_namesInUse_iff hd, not_or] at hfree
  rw [mem_namesInUse_iff hd', hentry _ hfree.2 hothers, not_or]
  exact hfree

end HasStagingRoom

end FileTree

end LinearLight
