import LinearLight.Proofs.C.Scan

/-!
# Written text is read back

The tokens of a piece of text stand for one piece of a file, or for none when the text is empty or a
remark, and what stands behind them is left. So a file is read back from its text as the pieces that
were written.

## Main definitions

- `C.pieceOf?`: the piece of a file that a piece of text is written for

## Main statements

- `C.piece?_itemTokens`: the piece in front of its tokens
- `C.File.read?_render`: the file that was written
-/

namespace LinearLight.C

open Code (ElementType Item render)

/-- The piece of a file that a piece of text is written for; empty lines and remarks are none. -/
def pieceOf? : Item → Option Piece
  | .pragmaOnce => some (.directive .once)
  | .includeSystem file => some (.directive (.includeAngled file))
  | .includeLocal file => some (.directive (.includeQuoted file))
  | .blank => none
  | .comment _ => none
  | .declaration type array length => some (.array ⟨type, array, length⟩)
  | .accessor type function array => some (.accessor ⟨type, function, .uint8, "v", array, "v"⟩)
  | .definition type array entries => some (.definition ⟨type, array, entries.length, entries⟩)

/-! ### Directives -/

theorem fileName?_eq {file : String} (h : IsFileName file) (last : Char) :
    fileName? last (file.toList ++ [last]) = some file := by
  have hall : file.toList.all isFileChar = true := List.all_eq_true.mpr h.2
  simp [fileName?, h.1, hall]

theorem read?_includeAngled {file : String} (h : IsFileName file) :
    Directive.read? ("include <".toList ++ file.toList ++ ">".toList) =
      some (.includeAngled file) :=
  congrArg (Option.map Directive.includeAngled) (fileName?_eq h '>')

theorem read?_includeQuoted {file : String} (h : IsFileName file) :
    Directive.read? ("include \"".toList ++ file.toList ++ "\"".toList) =
      some (.includeQuoted file) :=
  congrArg (Option.map Directive.includeQuoted) (fileName?_eq h '"')

theorem piece?_directive {text : List Char} {d : Directive} (h : Directive.read? text = some d)
    (rest : List Token) : piece? (.directive text :: rest) = some (.directive d, rest) := by
  simp [piece?, directive?, h]

/-! ### Initializers -/

theorem initializers?_entries (entries : List Nat) (rest : List Token) :
    initializers? ((entries.flatMap fun n => [.number n, .mark .comma]) ++
      .mark .closeBrace :: rest) = some (entries, rest) := by
  induction entries with
  | nil => rfl
  | cons n entries ih =>
    rw [List.flatMap_cons, List.append_assoc]
    simp only [List.cons_append, List.nil_append, initializers?, ih]
    rfl

/-! ### Pieces -/

/-- A piece is read from its tokens, and what is behind them is left. -/
theorem piece?_itemTokens {item : Item} {p : Piece} (h : IsPlain item) (hp : pieceOf? item = some p)
    (rest : List Token) : piece? (itemTokens item ++ rest) = some (p, rest) := by
  cases item with
  | pragmaOnce => cases hp; rfl
  | includeSystem file =>
    cases hp
    exact piece?_directive (read?_includeAngled h) rest
  | includeLocal file =>
    cases hp
    exact piece?_directive (read?_includeQuoted h) rest
  | blank => cases hp
  | comment text => cases hp
  | declaration type array length => cases hp; rfl
  | accessor type function array => cases hp; rfl
  | definition type array entries =>
    cases hp
    have hentries := initializers?_entries entries (.mark .semicolon :: rest)
    simp [itemTokens, piece?, directive?, array?, definition?, hentries]

theorem itemTokens_eq_nil {item : Item} (hp : pieceOf? item = none) : itemTokens item = [] := by
  cases item <;> first | rfl | cases hp

theorem pieces?_cons {tokens rest : List Token} {p : Piece} (h : piece? tokens = some (p, rest)) :
    pieces? tokens = (pieces? rest).map (p :: ·) := by
  have hne : tokens ≠ [] := by
    rintro rfl
    exact absurd (length_lt_of_piece? h) (Nat.not_lt_zero _)
  rw [pieces?, if_neg hne]
  split
  · next hnone => rw [h] at hnone; cases hnone
  · next p' rest' hsome =>
    rw [h] at hsome
    cases hsome
    rfl

theorem pieces?_flatMap_itemTokens {items : List Item} (h : ∀ item ∈ items, IsPlain item) :
    pieces? (items.flatMap itemTokens) = some (items.filterMap pieceOf?) := by
  induction items with
  | nil => rw [List.flatMap_nil, pieces?, if_pos rfl]; rfl
  | cons item items ih =>
    obtain ⟨hitem, hitems⟩ := List.forall_mem_cons.mp h
    rw [List.flatMap_cons]
    cases hp : pieceOf? item with
    | none => rw [itemTokens_eq_nil hp, List.nil_append, List.filterMap_cons_none hp, ih hitems]
    | some p =>
      rw [pieces?_cons (piece?_itemTokens hitem hp _), ih hitems, List.filterMap_cons_some hp]
      rfl

/-! ### Files -/

theorem scans_render {items : List Item} (h : ∀ item ∈ items, IsPlain item) :
    Scans .lineStart (render items).toList .lineStart (items.flatMap itemTokens) := by
  induction items with
  | nil => exact .nil _
  | cons item items ih =>
    obtain ⟨hitem, hitems⟩ := List.forall_mem_cons.mp h
    rw [Code.render_cons, String.toList_append]
    exact (scans_item hitem).append (ih hitems)

/-- A file is read back from its text. -/
theorem File.read?_render {items : List Item} (h : ∀ item ∈ items, IsPlain item) :
    File.read? (render items) = some ⟨items.filterMap pieceOf?⟩ := by
  have htokens : tokensOf? (render items).toList = some (items.flatMap itemTokens) := by
    have hscan : scan .lineStart (render items).toList = _ := scans_render h
    simp [tokensOf?, hscan]
  simp [File.read?, htokens, pieces?_flatMap_itemTokens h]

end LinearLight.C
