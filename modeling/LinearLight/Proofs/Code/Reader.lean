import LinearLight.Code.Reader
import LinearLight.Proofs.Code.Artifact
import LinearLight.Proofs.Decimal.Digits
import LinearLight.Proofs.Split

/-!
# The format of the source

The source is read back by a reader that takes exactly what is written for some tables. The form of
what it takes can be said without writing anything: so many lines, each ended, fixed ones around two
blocks of numerals within the ranges of their types.

## Main definitions

- `Code.IsEntryLine`: the line of an initializer
- `Code.IsSource`: the form of a source

## Main statements

- `Code.linesOf?_eq_some_iff`, `Code.entryOf?_eq_some_iff`, `Code.arrayOf?_eq_some_iff`: what each
  reader takes
- `Code.tablesOf?_eq_some_iff`: the text that the tables of a source are read from
- `Code.source_roundtrip`
-/

namespace LinearLight.Code

/-! ### Lines -/

/-- Parts of which the last is empty are joined like lines. -/
theorem unsplit_append_nil (lines : List (List Char)) :
    unsplit '\n' (lines ++ [[]]) = lines.flatMap (· ++ ['\n']) := by
  induction lines with
  | nil => rfl
  | cons line lines ih =>
    rw [List.cons_append, List.flatMap_cons, ← ih]
    cases lines <;> simp [unsplit]

theorem linesOf?_eq_some_iff {text : List Char} {lines : List (List Char)} :
    linesOf? text = some lines ↔
      text = lines.flatMap (· ++ ['\n']) ∧ ∀ line ∈ lines, '\n' ∉ line := by
  rw [← unsplit_append_nil]
  constructor
  · intro h
    by_cases hlast : (split '\n' text).getLast? = some []
    · rw [linesOf?, if_pos hlast, Option.some.injEq] at h
      have hparts : split '\n' text = lines ++ [[]] := by
        rw [← h]
        exact (List.dropLast_append_getLast? _ hlast).symm
      refine ⟨by rw [← hparts, unsplit_split], fun line hline => ?_⟩
      exact not_mem_of_mem_split (hparts ▸ List.mem_append_left _ hline)
    · simp [linesOf?, hlast] at h
  · rintro ⟨rfl, hlines⟩
    have hparts : split '\n' (unsplit '\n' (lines ++ [[]])) = lines ++ [[]] := by
      refine split_unsplit (by simp) fun line hline => ?_
      rcases List.mem_append.mp hline with hline | hline
      · exact hlines line hline
      · simp [List.mem_singleton.mp hline]
    simp [linesOf?, hparts]

/-! ### Entries -/

theorem toList_entryLine (n : Nat) :
    (entryLine n).toList = ' ' :: ' ' :: ' ' :: ' ' :: (Decimal.digitsOf n ++ [',']) := by
  simp [entryLine, Decimal.ofNat]

theorem entryOf?_eq_some_iff {largest n : Nat} {line : List Char} :
    entryOf? largest line = some n ↔ line = (entryLine n).toList ∧ n ≤ largest := by
  rw [toList_entryLine]
  constructor
  · intro h
    unfold entryOf? at h
    split at h
    · next rest =>
      split at h
      · next hcomma =>
        obtain ⟨m, hm, h⟩ := Option.bind_eq_some_iff.mp h
        split at h
        · next hle =>
          obtain rfl := Option.some.inj h
          rw [Decimal.canonicalValue?_eq_some_iff.mp hm, List.dropLast_append_getLast? _ hcomma]
          exact ⟨rfl, hle⟩
        · cases h
      · cases h
    · cases h
  · rintro ⟨rfl, hle⟩
    have hvalue : Decimal.canonicalValue? (Decimal.digitsOf n) = some n :=
      Decimal.canonicalValue?_eq_some_iff.mpr rfl
    simp [entryOf?, hvalue, hle]

/-- Lines that a reader takes one by one are the lines written for what it reads. -/
theorem mapM_entryOf?_eq_some_iff {largest : Nat} {lines : List (List Char)} {entries : List Nat} :
    lines.mapM (entryOf? largest) = some entries ↔
      lines = entries.map (fun n => (entryLine n).toList) ∧ ∀ n ∈ entries, n ≤ largest := by
  induction lines generalizing entries with
  | nil => cases entries <;> simp
  | cons line lines ih =>
    rw [List.mapM_cons]
    constructor
    · intro h
      obtain ⟨n, hn, h⟩ := Option.bind_eq_some_iff.mp h
      obtain ⟨more, hmore, h⟩ := Option.bind_eq_some_iff.mp h
      obtain rfl := Option.some.inj h
      obtain ⟨hline, hle⟩ := entryOf?_eq_some_iff.mp hn
      obtain ⟨hlines, hall⟩ := ih.mp hmore
      exact ⟨by rw [hline, hlines, List.map_cons], List.forall_mem_cons.mpr ⟨hle, hall⟩⟩
    · rintro ⟨hlines, hall⟩
      cases entries with
      | nil => simp at hlines
      | cons n entries =>
        obtain ⟨hle, hall⟩ := List.forall_mem_cons.mp hall
        obtain ⟨hline, hlines⟩ := List.cons_eq_cons.mp hlines
        rw [entryOf?_eq_some_iff.mpr ⟨hline, hle⟩, ih.mpr ⟨hlines, hall⟩]
        rfl

/-- The line of an initializer of a type whose largest number is given: four spaces, a numeral
within the type's range, and a comma. -/
def IsEntryLine (largest : Nat) (line : List Char) : Prop :=
  ∃ numeral, line = "    ".toList ++ numeral ++ [','] ∧ Decimal.IsNumeral numeral ∧
    ∃ n ≤ largest, Decimal.valueOf? numeral = some n

theorem isEntryLine_iff {largest : Nat} {line : List Char} :
    IsEntryLine largest line ↔ ∃ n ≤ largest, line = (entryLine n).toList := by
  constructor
  · rintro ⟨numeral, rfl, hnumeral, n, hle, hvalue⟩
    refine ⟨n, hle, ?_⟩
    rw [toList_entryLine, Decimal.digitsOf_eq_iff.mpr ⟨hnumeral, hvalue⟩]
    rfl
  · rintro ⟨n, hle, rfl⟩
    refine ⟨Decimal.digitsOf n, toList_entryLine n, Decimal.isNumeral_digitsOf n, n, hle, ?_⟩
    exact Decimal.valueOf?_digitsOf n

/-! ### Arrays -/

/-- The lines of an array's definition: the first one, the initializers, and the last one. -/
def blockLines (opening : String) (values : List (List Char)) : List (List Char) :=
  opening.toList :: (values ++ ["\x7d;".toList])

theorem arrayOf?_eq_some_iff {opening : String} {largest : Nat} {lines after : List (List Char)}
    {entries : List Nat} :
    arrayOf? opening largest lines = some (entries, after) ↔
      (entries.length = 256 ∧ ∀ n ∈ entries, n ≤ largest) ∧
      lines = blockLines opening (entries.map fun n => (entryLine n).toList) ++ after := by
  constructor
  · intro h
    unfold arrayOf? at h
    split at h
    · cases h
    · next first rest =>
      split at h
      · next hfirst =>
        split at h
        · next last after' hdrop =>
          split at h
          · next hlast =>
            obtain ⟨read, hread, h⟩ := Option.bind_eq_some_iff.mp h
            obtain ⟨rfl, rfl⟩ := Prod.mk.inj (Option.some.inj h)
            obtain ⟨hlines, hall⟩ := mapM_entryOf?_eq_some_iff.mp hread
            have hlength : read.length = 256 := by
              have := congrArg List.length hlines
              have hdropped := congrArg List.length hdrop
              simp only [List.length_take, List.length_map, List.length_drop,
                List.length_cons] at this hdropped
              omega
            refine ⟨⟨hlength, hall⟩, ?_⟩
            rw [blockLines, ← hlines, ← hlast, List.cons_append, List.append_assoc,
              List.singleton_append, ← hdrop, List.take_append_drop, hfirst]
          · cases h
        · cases h
      · cases h
  · rintro ⟨⟨hlength, hall⟩, rfl⟩
    have hread : (entries.map fun n => (entryLine n).toList).mapM (entryOf? largest) =
        some entries := mapM_entryOf?_eq_some_iff.mpr ⟨rfl, hall⟩
    have hmap : (entries.map fun n => (entryLine n).toList).length = 256 := by
      rw [List.length_map, hlength]
    rw [blockLines, List.cons_append, List.append_assoc, List.singleton_append]
    simp only [arrayOf?, if_true]
    rw [← hmap, List.drop_left, List.take_left]
    simp [hread]

theorem tableOf?_eq_some_iff {α : Type} {entries : List α} {v : Vector α 256} :
    tableOf? entries = some v ↔ v.toList = entries := by
  constructor
  · intro h
    unfold tableOf? at h
    split at h
    · rw [← Option.some.inj h]
      rfl
    · cases h
  · rintro rfl
    rw [tableOf?, dif_pos (by simp), Option.some.injEq, ← Vector.toArray_inj]
    exact Array.toArray_toList

/-- Numbers within the range of a type make a table of that type, and no others do. -/
theorem exists_table_iff {α : Type} {toNat : α → Nat} {ofNat : Nat → α} {largest : Nat}
    (hof : ∀ a, ofNat (toNat a) = a) (hto : ∀ n ≤ largest, toNat (ofNat n) = n)
    (hle : ∀ a, toNat a ≤ largest) {entries : List Nat} {v : Vector α 256} :
    (entries.length = 256 ∧ ∀ n ∈ entries, n ≤ largest) ∧ v.toList = entries.map ofNat ↔
      entries = v.toList.map toNat := by
  constructor
  · rintro ⟨⟨-, hall⟩, hv⟩
    rw [hv, List.map_map]
    exact ((List.map_congr_left fun n hn => hto n (hall n hn)).trans (List.map_id _)).symm
  · rintro rfl
    refine ⟨⟨by simp, fun n hn => ?_⟩, ?_⟩
    · obtain ⟨a, -, rfl⟩ := List.mem_map.mp hn
      exact hle a
    · rw [List.map_map]
      exact ((List.map_congr_left fun a _ => hof a).trans (List.map_id _)).symm

/-! ### Sources -/

section Source

abbrev inclusion : String := "#include \"srgb.h\""

abbrev opening16 : String := "const uint16_t srgb_decode_8_to_16_table[256] = \x7b"

abbrev opening8 : String := "const uint8_t srgb_decode_8_to_8_table[256] = \x7b"

variable {t : Tables} {text : String} {lines : List (List Char)}

/-- The lines of the source for some tables. -/
def sourceLines (t : Tables) : List (List Char) :=
  inclusion.toList :: [] ::
    (blockLines opening16
        ((t.linear16.toList.map UInt16.toNat).map fun n => (entryLine n).toList) ++
      blockLines opening8 ((t.linear8.toList.map UInt8.toNat).map fun n => (entryLine n).toList))

theorem ofNat_256 : Decimal.ofNat 256 = "256" := by
  simp [Decimal.ofNat, Decimal.digitsOf, Decimal.digitChar]

theorem map_toList_lines_definition (type : ElementType) (array : String) (entries : List Nat) :
    (Item.definition type array entries).lines.map String.toList =
      blockLines
        ("const " ++ type.keyword ++ " " ++ array ++ "[" ++ Decimal.ofNat entries.length ++
          "] = \x7b")
        (entries.map fun n => (entryLine n).toList) := by
  rw [Item.lines, blockLines, List.cons_append, List.map_cons, List.map_append, List.map_map]
  rfl

theorem map_toList_lines_source (t : Tables) :
    ((sourceItems t).flatMap Item.lines).map String.toList = sourceLines t := by
  have h16 : (t.linear16.toList.map UInt16.toNat).length = 256 := by simp
  have h8 : (t.linear8.toList.map UInt8.toNat).length = 256 := by simp
  simp only [sourceItems, List.flatMap_cons, List.flatMap_nil, List.map_append, List.append_nil,
    map_toList_lines_definition, h16, h8, ofNat_256]
  rfl

theorem table16_iff {entries : List Nat} {v : Vector UInt16 256} :
    (entries.length = 256 ∧ ∀ n ∈ entries, n ≤ 65535) ∧ v.toList = entries.map UInt16.ofNat ↔
      entries = v.toList.map UInt16.toNat :=
  exists_table_iff (fun _ => UInt16.ofNat_toNat)
    (fun _ hn => UInt16.toNat_ofNat_of_lt' (Nat.lt_succ_of_le hn))
    (fun a => Nat.le_of_lt_succ a.toNat_lt)

theorem table8_iff {entries : List Nat} {v : Vector UInt8 256} :
    (entries.length = 256 ∧ ∀ n ∈ entries, n ≤ 255) ∧ v.toList = entries.map UInt8.ofNat ↔
      entries = v.toList.map UInt8.toNat :=
  exists_table_iff (fun _ => UInt8.ofNat_toNat)
    (fun _ hn => UInt8.toNat_ofNat_of_lt' (Nat.lt_succ_of_le hn))
    (fun a => Nat.le_of_lt_succ a.toNat_lt)

theorem tablesOfLines?_eq_some_iff : tablesOfLines? lines = some t ↔ lines = sourceLines t := by
  constructor
  · intro h
    unfold tablesOfLines? at h
    split at h
    · next first second rest =>
      split at h
      · next hfirst =>
        obtain ⟨⟨entries16, after16⟩, h16, h⟩ := Option.bind_eq_some_iff.mp h
        obtain ⟨⟨entries8, after8⟩, h8, h⟩ := Option.bind_eq_some_iff.mp h
        dsimp only at h
        split at h
        · next hempty =>
          obtain ⟨linear16, ht16, h⟩ := Option.bind_eq_some_iff.mp h
          obtain ⟨linear8, ht8, h⟩ := Option.bind_eq_some_iff.mp h
          obtain rfl := Option.some.inj h
          obtain ⟨hrange16, hlines⟩ := arrayOf?_eq_some_iff.mp h16
          obtain ⟨hrange8, rfl⟩ := arrayOf?_eq_some_iff.mp h8
          obtain rfl := table16_iff.mp ⟨hrange16, tableOf?_eq_some_iff.mp ht16⟩
          obtain rfl := table8_iff.mp ⟨hrange8, tableOf?_eq_some_iff.mp ht8⟩
          rw [List.isEmpty_iff.mp hempty, List.append_nil] at hlines
          rw [hfirst.1, hfirst.2, hlines]
          rfl
        · cases h
      · cases h
    · cases h
  · rintro rfl
    obtain ⟨hrange16, ht16⟩ := table16_iff.mpr (Eq.refl (t.linear16.toList.map UInt16.toNat))
    obtain ⟨hrange8, ht8⟩ := table8_iff.mpr (Eq.refl (t.linear8.toList.map UInt8.toNat))
    have h16 : ∀ after, arrayOf? opening16 65535 (blockLines opening16 _ ++ after) = _ :=
      fun after => arrayOf?_eq_some_iff.mpr ⟨hrange16, rfl⟩
    have h8 : arrayOf? opening8 255 (blockLines opening8 _ ++ []) = _ :=
      arrayOf?_eq_some_iff.mpr ⟨hrange8, rfl⟩
    rw [List.append_nil] at h8
    simp only [tablesOfLines?, sourceLines, and_self, if_true, h16, h8, Option.bind_eq_bind,
      Option.bind_some, List.isEmpty_nil, tableOf?_eq_some_iff.mpr ht16,
      tableOf?_eq_some_iff.mpr ht8]
    rfl

theorem toList_source (t : Tables) :
    (source t).toList = (sourceLines t).flatMap (· ++ ['\n']) := by
  rw [source, render, toList_joinLines, map_toList_lines_source]

theorem newline_not_mem_entryLine (n : Nat) : '\n' ∉ (entryLine n).toList := by
  rw [toList_entryLine]
  intro h
  have hdigit : '\n' ∈ Decimal.digitsOf n := by simpa using h
  exact absurd (Decimal.isDigit_of_mem_digitsOf hdigit) (by decide)

theorem newline_not_mem_blockLines {opening : String} (h : '\n' ∉ opening.toList)
    {entries : List Nat} {line : List Char}
    (hline : line ∈ blockLines opening (entries.map fun n => (entryLine n).toList)) :
    '\n' ∉ line := by
  rcases List.mem_cons.mp hline with rfl | hline
  · exact h
  · rcases List.mem_append.mp hline with hline | hline
    · obtain ⟨n, -, rfl⟩ := List.mem_map.mp hline
      exact newline_not_mem_entryLine n
    · rw [List.mem_singleton.mp hline]
      decide

theorem newline_not_mem_sourceLines {line : List Char} (h : line ∈ sourceLines t) :
    '\n' ∉ line := by
  rcases List.mem_cons.mp h with rfl | h
  · decide
  · rcases List.mem_cons.mp h with rfl | h
    · decide
    · rcases List.mem_append.mp h with h | h
      · exact newline_not_mem_blockLines (by decide) h
      · exact newline_not_mem_blockLines (by decide) h

/-- The reader takes the source for some tables, as these tables, and nothing else. -/
theorem tablesOf?_eq_some_iff : tablesOf? text = some t ↔ source t = text := by
  rw [← String.toList_inj, toList_source]
  constructor
  · intro h
    obtain ⟨lines, hlines, h⟩ := Option.bind_eq_some_iff.mp h
    rw [(linesOf?_eq_some_iff.mp hlines).1, tablesOfLines?_eq_some_iff.mp h]
  · intro h
    have hlines : linesOf? text.toList = some (sourceLines t) :=
      linesOf?_eq_some_iff.mpr ⟨h.symm, fun _ => newline_not_mem_sourceLines⟩
    rw [tablesOf?, hlines]
    exact tablesOfLines?_eq_some_iff.mpr rfl

/-! ### The format -/

/-- The form of a block: the first line, 256 lines of initializers, and the last line. -/
def IsBlock (opening : String) (largest : Nat) (lines : List (List Char)) : Prop :=
  ∃ values, lines = blockLines opening values ∧ values.length = 256 ∧
    ∀ value ∈ values, IsEntryLine largest value

/-- The form of a source: 518 lines, each ended, of which two stand before the two blocks. -/
def IsSource (text : String) : Prop :=
  ∃ lines block16 block8, text.toList = lines.flatMap (· ++ ['\n']) ∧ lines.length = 518 ∧
    lines = inclusion.toList :: [] :: (block16 ++ block8) ∧
    IsBlock opening16 65535 block16 ∧ IsBlock opening8 255 block8

theorem exists_entries {largest : Nat} {values : List (List Char)}
    (h : ∀ value ∈ values, IsEntryLine largest value) :
    ∃ entries : List Nat, values = entries.map (fun n => (entryLine n).toList) ∧
      ∀ n ∈ entries, n ≤ largest := by
  induction values with
  | nil => exact ⟨[], rfl, by simp⟩
  | cons value values ih =>
    obtain ⟨hvalue, hvalues⟩ := List.forall_mem_cons.mp h
    obtain ⟨n, hle, rfl⟩ := isEntryLine_iff.mp hvalue
    obtain ⟨entries, rfl, hall⟩ := ih hvalues
    exact ⟨n :: entries, rfl, List.forall_mem_cons.mpr ⟨hle, hall⟩⟩

theorem isBlock_iff {opening : String} {largest : Nat} {lines : List (List Char)} :
    IsBlock opening largest lines ↔ ∃ entries : List Nat,
      (entries.length = 256 ∧ ∀ n ∈ entries, n ≤ largest) ∧
      lines = blockLines opening (entries.map fun n => (entryLine n).toList) := by
  constructor
  · rintro ⟨values, rfl, hlength, hvalues⟩
    obtain ⟨entries, rfl, hall⟩ := exists_entries hvalues
    exact ⟨entries, ⟨by rwa [List.length_map] at hlength, hall⟩, rfl⟩
  · rintro ⟨entries, ⟨hlength, hall⟩, rfl⟩
    refine ⟨_, rfl, by rw [List.length_map, hlength], fun value hvalue => ?_⟩
    obtain ⟨n, hn, rfl⟩ := List.mem_map.mp hvalue
    exact isEntryLine_iff.mpr ⟨n, hall n hn, rfl⟩

theorem exists_vector {α : Type} {entries : List α} (h : entries.length = 256) :
    ∃ v : Vector α 256, v.toList = entries :=
  ⟨⟨entries.toArray, by simpa using h⟩, rfl⟩

theorem isSource_iff : IsSource text ↔ ∃ t, source t = text := by
  simp only [← String.toList_inj, toList_source]
  constructor
  · rintro ⟨_, _, _, htext, -, rfl, h16, h8⟩
    obtain ⟨entries16, hrange16, rfl⟩ := isBlock_iff.mp h16
    obtain ⟨entries8, hrange8, rfl⟩ := isBlock_iff.mp h8
    obtain ⟨linear16, hv16⟩ : ∃ v : Vector UInt16 256, v.toList = entries16.map UInt16.ofNat :=
      exists_vector (by rw [List.length_map, hrange16.1])
    obtain ⟨linear8, hv8⟩ : ∃ v : Vector UInt8 256, v.toList = entries8.map UInt8.ofNat :=
      exists_vector (by rw [List.length_map, hrange8.1])
    obtain rfl := table16_iff.mp ⟨hrange16, hv16⟩
    obtain rfl := table8_iff.mp ⟨hrange8, hv8⟩
    exact ⟨⟨linear16, linear8⟩, htext.symm⟩
  · rintro ⟨t, ht⟩
    have hrange16 := (table16_iff.mpr (Eq.refl (t.linear16.toList.map UInt16.toNat))).1
    have hrange8 := (table8_iff.mpr (Eq.refl (t.linear8.toList.map UInt8.toNat))).1
    exact ⟨sourceLines t, _, _, ht.symm, by simp [sourceLines, blockLines], rfl,
      isBlock_iff.mpr ⟨_, hrange16, rfl⟩, isBlock_iff.mpr ⟨_, hrange8, rfl⟩⟩

/-- Reading and writing the source are inverse to each other: the source for some tables is read as
these tables, and a text that is read as some tables is the source for them. So tables that differ
have sources that differ, and the texts of the format are the sources and the texts that can be
read. -/
theorem source_roundtrip :
    (∀ t, tablesOf? (source t) = some t) ∧
    (∀ text t, tablesOf? text = some t ↔ text = source t) ∧
    Function.Injective source ∧
    ∀ text,
      ((tablesOf? text).isSome ↔ IsSource text) ∧ ((∃ t, source t = text) ↔ IsSource text) := by
  have hread : ∀ t, tablesOf? (source t) = some t := fun t => tablesOf?_eq_some_iff.mpr rfl
  refine ⟨hread, fun text t => tablesOf?_eq_some_iff.trans eq_comm, fun t u h => ?_,
    fun text => ⟨?_, isSource_iff.symm⟩⟩
  · have h := congrArg tablesOf? h
    rw [hread, hread] at h
    exact Option.some.inj h
  · rw [isSource_iff, Option.isSome_iff_exists]
    exact exists_congr fun t => tablesOf?_eq_some_iff

end Source

end LinearLight.Code
