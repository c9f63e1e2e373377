import LinearLight.Code.Item
import LinearLight.Tables

/-!
# The two artifacts

The header declares both arrays and an accessor for each; the source includes the header by name
and defines the arrays. The names are relied on by the code that uses the tables.

## Main definitions

- `Code.header`: the header, the same for all tables
- `Code.source`: the source for given tables
- `Code.Artifacts`: both of them
-/

namespace LinearLight.Code

/-- The file name by which the source includes the header. -/
def headerName : String := "srgb.h"

def array16 : String := "srgb_decode_8_to_16_table"

def accessor16 : String := "srgb_decode_8_to_16"

def array8 : String := "srgb_decode_8_to_8_table"

def accessor8 : String := "srgb_decode_8_to_8"

def headerItems : List Item :=
  [.pragmaOnce, .includeSystem "stdint.h", .blank,
    .comment "8-bit input, 16-bit output",
    .declaration .uint16 array16 256,
    .accessor .uint16 accessor16 array16, .blank,
    .comment "8-bit input, 8-bit output",
    .declaration .uint8 array8 256, .blank,
    .accessor .uint8 accessor8 array8]

def sourceItems (t : Tables) : List Item :=
  [.includeLocal headerName, .blank,
    .definition .uint16 array16 (t.linear16.toList.map UInt16.toNat),
    .definition .uint8 array8 (t.linear8.toList.map UInt8.toNat)]

def header : String := render headerItems

def source (t : Tables) : String := render (sourceItems t)

/-- The header and the source that belong together. -/
structure Artifacts where
  header : String
  source : String
deriving DecidableEq

def artifacts (t : Tables) : Artifacts := ⟨header, source t⟩

end LinearLight.Code
