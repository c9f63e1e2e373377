import LinearLight.C.Program
import LinearLight.Proofs.C.Reading

/-!
# The artifacts mean the tables

The header and the source of any two tables are read back as C, and the program that they make has
the tables' lookups for its calls.

## Main statements

- `C.read?_artifacts`: the program that the artifacts make
- `C.coherent_program`: its header and source agree
- `C.call?_eq`: an accessor of an array of its own type gives the array's entries
- `C.artifacts_mean_tables`
-/

namespace LinearLight.C

open Code (ElementType Item headerItems sourceItems array16 accessor16 array8 accessor8)

/-! ### The names can be read -/

/-- The names of the arrays and of their accessors. -/
def givenNames : List String := [array16, accessor16, array8, accessor8]

theorem isIdentifier_of_mem_givenNames {name : String} (h : name ∈ givenNames) :
    IsIdentifier name := by
  have hchecked : givenNames.all (fun name => !name.isEmpty && name.toList.all isWordChar &&
      Token.ofWord? name.toList == some (.name name)) = true := by decide
  have hname := List.all_eq_true.mp hchecked name h
  simp only [Bool.and_eq_true, Bool.not_eq_true', beq_iff_eq, List.all_eq_true] at hname
  obtain ⟨⟨hnonempty, hchars⟩, htoken⟩ := hname
  exact ⟨by simpa using hnonempty, hchars, htoken⟩

theorem isFileName_stdint : IsFileName "stdint.h" := ⟨by decide, List.all_eq_true.mp (by decide)⟩

theorem isFileName_header : IsFileName Code.headerName :=
  ⟨by decide, List.all_eq_true.mp (by decide)⟩

theorem isPlain_headerItems : ∀ item ∈ headerItems, IsPlain item := by
  have hname : ∀ name ∈ givenNames, IsIdentifier name := fun _ => isIdentifier_of_mem_givenNames
  simp only [givenNames, List.forall_mem_cons] at hname
  obtain ⟨harray16, haccessor16, harray8, haccessor8, -⟩ := hname
  simp only [headerItems, List.forall_mem_cons, List.not_mem_nil, IsPlain]
  exact ⟨trivial, isFileName_stdint, trivial, by simp, harray16, ⟨haccessor16, harray16⟩, trivial,
    by simp, harray8, trivial, ⟨haccessor8, harray8⟩, fun _ h => h.elim⟩

theorem isPlain_sourceItems (t : Tables) : ∀ item ∈ sourceItems t, IsPlain item := by
  have harray16 : IsIdentifier array16 := isIdentifier_of_mem_givenNames (by simp [givenNames])
  have harray8 : IsIdentifier array8 := isIdentifier_of_mem_givenNames (by simp [givenNames])
  simp only [sourceItems, List.forall_mem_cons, List.not_mem_nil, IsPlain]
  exact ⟨isFileName_header, trivial, harray16, harray8, fun _ h => h.elim⟩

/-! ### The program -/

/-- The program that the artifacts make. -/
def programOf (t : Tables) : Program :=
  ⟨⟨headerItems.filterMap pieceOf?⟩, ⟨(sourceItems t).filterMap pieceOf?⟩⟩

theorem read?_artifacts (t : Tables) :
    Program.read? "srgb.h" (Code.artifacts t).header (Code.artifacts t).source =
      some (programOf t) := by
  have hheader : File.read? Code.header = some (programOf t).header :=
    File.read?_render isPlain_headerItems
  have hsource : File.read? (Code.source t) = some (programOf t).source :=
    File.read?_render (isPlain_sourceItems t)
  have hangled : .directive (.includeAngled "stdint.h") ∈ (programOf t).header.pieces :=
    List.mem_cons_of_mem _ List.mem_cons_self
  have hquoted : .directive (.includeQuoted "srgb.h") ∈ (programOf t).source.pieces :=
    List.mem_cons_self
  simp [Program.read?, Code.artifacts, hheader, hsource, hangled, hquoted]

/-! ### Header and source agree -/

theorem arrays_header (t : Tables) :
    (programOf t).header.arrays = [⟨.uint16, array16, 256⟩, ⟨.uint8, array8, 256⟩] := rfl

theorem pieces_header (t : Tables) :
    (programOf t).header.pieces = [.directive .once, .directive (.includeAngled "stdint.h"),
      .array ⟨.uint16, array16, 256⟩, .accessor ⟨.uint16, accessor16, .uint8, "v", array16, "v"⟩,
      .array ⟨.uint8, array8, 256⟩, .accessor ⟨.uint8, accessor8, .uint8, "v", array8, "v"⟩] := rfl

section Entries

variable {α : Type} (entries : Vector α 256) (value : α → Nat)

theorem length_entries : (entries.toList.map value).length = 256 := by simp

theorem forall_mem_entries {bound : Nat} (h : ∀ e, value e < bound) :
    ∀ n ∈ entries.toList.map value, n < bound := by
  intro n hn
  obtain ⟨e, -, rfl⟩ := List.mem_map.mp hn
  exact h e

theorem getElem?_entries (v : UInt8) :
    (entries.toList.map value)[v.toNat]? = some (value (entries.get v.toFin)) := by
  have hv : v.toNat < entries.toList.length := by simpa using v.toNat_lt
  rw [List.getElem?_map, List.getElem?_eq_getElem hv]
  rfl

end Entries

theorem coherent_program (t : Tables) : (programOf t).Coherent where
  defined_once := by
    rw [arrays_header]
    intro a ha
    rcases List.mem_cons.mp ha with rfl | ha
    · exact ⟨_, rfl, rfl, length_entries t.linear16 _, length_entries t.linear16 _,
        forall_mem_entries t.linear16 _ UInt16.toNat_lt⟩
    · obtain rfl := List.mem_singleton.mp ha
      exact ⟨_, rfl, rfl, length_entries t.linear8 _, length_entries t.linear8 _,
        forall_mem_entries t.linear8 _ UInt8.toNat_lt⟩
  indexes_declared i f h := by
    rw [pieces_header] at h ⊢
    match i with
    | 3 => cases h; exact ⟨rfl, 256, by simp⟩
    | 5 => cases h; exact ⟨rfl, 256, by simp⟩
    | 0 | 1 | 2 | 4 => cases h
    | n + 6 => cases h
  accessors_distinct := by
    have hnames : (programOf t).header.accessors.map Accessor.name = [accessor16, accessor8] := rfl
    rw [hnames]
    decide

/-! ### Calls -/

/-- A number that the type has bits for stays the same. -/
theorem convert_eq {type : ElementType} {n : Nat} (h : n < 1 <<< width type) : convert type n = n :=
  Nat.mod_eq_of_lt h

theorem element?_eq {d : ArrayDefinition} {i n : Nat} (hi : i < d.length)
    (h : d.initializers[i]? = some n) (hn : n < 1 <<< width d.type) : d.element? i = some n := by
  rw [ArrayDefinition.element?, if_pos hi, h, Option.getD_some, convert_eq hn]

/-- An accessor that indexes an array of its own type gives the array's entries. -/
theorem call?_eq {p : Program} {f : Accessor} {d : ArrayDefinition} {function : String} {v n : Nat}
    (hf : p.header.accessors.find? (·.name = function) = some f) (hindex : f.index = f.parameter)
    (hd : p.source.definitions.find? (·.name = f.array) = some d) (htype : f.type = d.type)
    (hv : v < 1 <<< width f.parameterType) (hlength : v < d.length)
    (h : d.initializers[v]? = some n) (hn : n < 1 <<< width d.type) :
    p.call? function v = some n := by
  have hget : d.element? v = some n := element?_eq hlength h hn
  simp [Program.call?, hf, hindex, hd, convert_eq hv, hget, htype, convert_eq hn]

theorem call?_program16 (t : Tables) (v : UInt8) :
    (programOf t).call? accessor16 v.toNat = some (t.lookup16 v).toNat := by
  refine call?_eq rfl rfl rfl rfl v.toNat_lt ?_ (getElem?_entries t.linear16 _ v)
    (t.lookup16 v).toNat_lt
  exact Nat.lt_of_lt_of_eq v.toNat_lt (length_entries t.linear16 _).symm

theorem call?_program8 (t : Tables) (v : UInt8) :
    (programOf t).call? accessor8 v.toNat = some (t.lookup8 v).toNat := by
  refine call?_eq rfl rfl rfl rfl v.toNat_lt ?_ (getElem?_entries t.linear8 _ v)
    (t.lookup8 v).toNat_lt
  exact Nat.lt_of_lt_of_eq v.toNat_lt (length_entries t.linear8 _).symm

/-- Read as C, the artifacts of any tables make a program whose header and source agree, and whose
accessors are the lookups in these tables. -/
theorem artifacts_mean_tables (t : Tables) :
    ∃ p, Program.read? "srgb.h" (Code.artifacts t).header (Code.artifacts t).source = some p ∧
      p.Coherent ∧
      (∀ v : UInt8, p.call? "srgb_decode_8_to_16" v.toNat = some (t.lookup16 v).toNat) ∧
      ∀ v : UInt8, p.call? "srgb_decode_8_to_8" v.toNat = some (t.lookup8 v).toNat :=
  ⟨programOf t, read?_artifacts t, coherent_program t, call?_program16 t, call?_program8 t⟩

end LinearLight.C
