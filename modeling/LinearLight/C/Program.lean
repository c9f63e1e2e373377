import LinearLight.C.File

/-!
# What C files with tables mean

A header and a source that includes it make a program. A call of an accessor of the header takes the
argument into the parameter's type, reads the element of the array that the source defines, and
gives it in the accessor's type. Conversions go by the widths of the types; an element without an
initializer is zero, and there is no element beyond the length.

## Main definitions

- `C.Program`: a header and the source that includes it
- `C.Program.call?`: the value of a call
- `C.Program.Coherent`: header and source agree
-/

namespace LinearLight.C

open Code (ElementType)

/-- The count of bits of a type's numbers. -/
def width : ElementType → Nat
  | .uint16 => 16
  | .uint8 => 8

/-- A number taken into a type: as much of it as the type has bits for. -/
def convert (type : ElementType) (n : Nat) : Nat := n % (1 <<< width type)

/-- The value of an element of an array. -/
def ArrayDefinition.element? (d : ArrayDefinition) (i : Nat) : Option Nat :=
  if i < d.length then some (convert d.type (d.initializers[i]?.getD 0)) else none

/-- A header and a source. -/
structure Program where
  header : File
  source : File
deriving DecidableEq

namespace Program

/-- The program that two texts make, if the source includes the header by the given name and the
header the one in which the system declares the types of the elements. -/
def read? (headerName header source : String) : Option Program := do
  let h ← File.read? header
  let s ← File.read? source
  if .directive (.includeAngled "stdint.h") ∈ h.pieces ∧
      .directive (.includeQuoted headerName) ∈ s.pieces then
    some ⟨h, s⟩
  else none

/-- The value of a call of an accessor, by its name. -/
def call? (p : Program) (function : String) (argument : Nat) : Option Nat := do
  let f ← p.header.accessors.find? (·.name = function)
  let d ← p.source.definitions.find? (·.name = f.array)
  -- the index is the parameter or a name that the function does not know
  if f.index = f.parameter then
    let v ← d.element? (convert f.parameterType argument)
    some (convert f.type v)
  else none

/-- Header and source agree: every array that the header declares is defined once, with the type and
the length declared and as many initializers, each a number of the type; every accessor indexes, by
its parameter, an array of its own type that stands declared before it; and no two have one name. -/
structure Coherent (p : Program) : Prop where
  defined_once : ∀ a ∈ p.header.arrays, ∃ d,
    p.source.definitions.filter (·.name = a.name) = [d] ∧ d.type = a.type ∧ d.length = a.length ∧
    d.initializers.length = a.length ∧ ∀ n ∈ d.initializers, n < 1 <<< width a.type
  indexes_declared : ∀ i f, p.header.pieces[i]? = some (.accessor f) → f.index = f.parameter ∧
    ∃ length, .array ⟨f.type, f.array, length⟩ ∈ p.header.pieces.take i
  accessors_distinct : (p.header.accessors.map Accessor.name).Nodup

end Program

end LinearLight.C
