import LinearLight.Text.Utf8
import Mathlib.Tactic.SplitIfs

/-!
# ASCII in bytes read as text

A byte below 0x80 is a character by itself, and no other byte starts one of those characters: the
ranges of the bytes to come leave out the overlong forms, so a longer character has a code point
from 0x80 on.

## Main statements

- `Text.pieces_cons_of_lt`: a byte below 0x80
- `Text.exists_pieces_cons`: any other byte
-/

namespace LinearLight.Text

/-- An ASCII character other than the null character, which also stands for what is no code
point. -/
def Piece.IsAscii (p : Piece) : Prop := ∃ c : Char, p = .char c ∧ 0 < c.toNat ∧ c.toNat < 0x80

/-- The bytes to come can only lead to a code point from 0x80 on. -/
structure Started.IsLong (s : Started) : Prop where
  bytes_ne_nil : s.bytes ≠ []
  two_le : ∃ low high more, s.expected = (low, high) :: more ∧
    (2 ≤ codePoint s.bytes ∨
      more ≠ [] ∧ ∀ b, low ≤ b → b ≤ high → 2 ≤ 64 * codePoint s.bytes + b.toNat % 64)

theorem pieces_cons_of_lt {b : UInt8} (hb : b < 0x80) (rest : Bytes) :
    pieces (b :: rest) = .char (Char.ofNat b.toNat) :: pieces rest := by
  simp [pieces, piecesFrom, Started.next, beginWith, hb]

/-- Bytes below 0x80 are told apart as characters. -/
theorem ofNat_eq_iff {b letter : UInt8} (hb : b < 0x80) (hletter : letter < 0x80) :
    Char.ofNat b.toNat = Char.ofNat letter.toNat ↔ b = letter := by
  have htoNat {b : UInt8} (hb : b < 0x80) : (Char.ofNat b.toNat).toNat = b.toNat := by
    rw [Char.ofNat, dif_pos (.inl (Nat.lt_trans (UInt8.lt_iff_toNat_lt.mp hb) (by decide)))]
    rfl
  refine ⟨fun h => UInt8.toNat_inj.mp ?_, fun h => by rw [h]⟩
  rw [← htoNat hb, h, htoNat hletter]

theorem codePoint_append {bytes : Bytes} (hbytes : bytes ≠ []) (b : UInt8) :
    codePoint (bytes ++ [b]) = 64 * codePoint bytes + b.toNat % 64 := by
  cases bytes with
  | nil => exact absurd rfl hbytes
  | cons first rest => simp [codePoint]

theorem not_isAscii_char {n : Nat} (hn : 0x80 ≤ n) : ¬ (Piece.char (Char.ofNat n)).IsAscii := by
  rintro ⟨c, hc, hpos, hlt⟩
  rw [← Piece.char.inj hc] at hpos hlt
  by_cases hvalid : n.isValidChar
  · rw [Char.ofNat, dif_pos hvalid] at hlt
    change n < 0x80 at hlt
    omega
  · rw [Char.ofNat, dif_neg hvalid] at hpos
    exact absurd hpos (by decide)

theorem isLong_continuations {b : UInt8} (hb : 0x80 ≤ b) (h : continuations b ≠ []) :
    Started.IsLong ⟨[b], continuations b⟩ := by
  obtain ⟨⟨low, high⟩, more, hcons⟩ := List.exists_cons_of_ne_nil h
  refine ⟨List.cons_ne_nil _ _, low, high, more, hcons, ?_⟩
  simp only [continuations, codePoint, UInt8.lt_iff_toNat_lt, UInt8.le_iff_toNat_le,
    ← UInt8.toNat_inj, List.foldl_nil, UInt8.reduceToNat] at hb hcons ⊢
  split_ifs at hcons ⊢ <;> cases hcons
  all_goals simp only [UInt8.reduceToNat]
  -- the first byte alone is enough only where a single byte is to come
  · exact .inl (by omega)
  all_goals
    refine .inr ⟨List.cons_ne_nil _ _, fun b' hlow hhigh => ?_⟩
    omega

/-- Wherever a longer character has been started, the next piece is no ASCII character. -/
theorem exists_piecesFrom {s : Started} (h : s.IsLong) (rest : Bytes) :
    ∃ p more, piecesFrom s rest = p :: more ∧ ¬ p.IsAscii := by
  have hbad (bytes : Bytes) : ¬ (Piece.bad bytes).IsAscii := fun ⟨_, hc, _⟩ => nomatch hc
  induction rest generalizing s with
  | nil =>
    refine ⟨_, [], ?_, hbad s.bytes⟩
    rw [piecesFrom, if_neg (by simpa using h.bytes_ne_nil)]
  | cons b rest ih =>
    obtain ⟨low, high, more, hexpected, htwo⟩ := h.two_le
    by_cases hrange : low ≤ b ∧ b ≤ high
    · by_cases hmore : more = []
      · have hlarge : 0x80 ≤ codePoint (s.bytes ++ [b]) := by
          rw [codePoint_append h.bytes_ne_nil]
          have := htwo.resolve_right fun ⟨hne, _⟩ => hne hmore
          omega
        refine ⟨_, piecesFrom {} rest, ?_, not_isAscii_char hlarge⟩
        simp [piecesFrom, Started.next, hexpected, hrange, hmore]
      · have hlong : Started.IsLong ⟨s.bytes ++ [b], more⟩ := by
          obtain ⟨⟨low', high'⟩, more', rfl⟩ := List.exists_cons_of_ne_nil hmore
          refine ⟨by simp, low', high', more', rfl, .inl ?_⟩
          rw [codePoint_append h.bytes_ne_nil]
          obtain htwo | ⟨-, htwo⟩ := htwo
          · omega
          · exact htwo b hrange.1 hrange.2
        obtain ⟨p, pieces, hpieces, hp⟩ := ih hlong
        refine ⟨p, pieces, ?_, hp⟩
        simpa [piecesFrom, Started.next, hexpected, hrange, hmore] using hpieces
    · refine ⟨_, (beginWith b).1 ++ piecesFrom (beginWith b).2 rest, ?_, hbad s.bytes⟩
      simp [piecesFrom, Started.next, hexpected, hrange]

/-- A byte from 0x80 on is never read as an ASCII character. -/
theorem exists_pieces_cons {b : UInt8} (hb : 0x80 ≤ b) (rest : Bytes) :
    ∃ p more, pieces (b :: rest) = p :: more ∧ ¬ p.IsAscii := by
  have hlt : ¬ b < 0x80 := UInt8.not_lt.mpr hb
  by_cases hnone : continuations b = []
  · refine ⟨.bad [b], pieces rest, ?_, fun ⟨_, hc, _⟩ => nomatch hc⟩
    simp [pieces, piecesFrom, Started.next, beginWith, hlt, hnone]
  · obtain ⟨p, more, hpieces, hp⟩ := exists_piecesFrom (isLong_continuations hb hnone) rest
    refine ⟨p, more, ?_, hp⟩
    simpa [pieces, piecesFrom, Started.next, beginWith, hlt, hnone] using hpieces

end LinearLight.Text
