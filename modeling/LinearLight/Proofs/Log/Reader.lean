import LinearLight.Log.Directive
import LinearLight.Proofs.Bytes
import Mathlib.Tactic.SplitIfs

/-!
# The reader of filters comes back

Parts are cut out of a directive at places that were counted without the blanks in front of it. With
no blanks there, the places are where characters begin; and with nothing but ASCII characters, all
places are. So the reader comes back from every text whose directives are of one of these kinds.

## Main definitions

- `Log.Safe`: a reading that does not crash, and what it comes to
- `Log.Aligned`: characters that are not read inside of characters of a text

## Main statements

- `Log.Draft.safe_next`, `Log.Draft.safe_read`: a directive is cut outside of characters only
- `Log.Filter.returns_read`: texts from which the reader comes back
-/

namespace LinearLight.Log

variable {α β : Type} {p : α → Prop} {q : β → Prop}

/-- A reading does not crash, and what it comes to, if to anything, has a property. -/
def Safe (reading : Except Fault α) (p : α → Prop) : Prop :=
  match reading with
  | .ok a => p a
  | .error fault => fault ≠ .crash

theorem Safe.ne_crash {reading : Except Fault α} (h : Safe reading p) :
    reading ≠ .error .crash := by
  rintro rfl
  exact h rfl

theorem Safe.bind {first : Except Fault α} {second : α → Except Fault β} (hfirst : Safe first p)
    (hsecond : ∀ a, p a → Safe (second a) q) : Safe (first >>= second) q := by
  cases first with
  | ok a => exact hsecond a hfirst
  | error fault => exact hfirst

theorem Safe.ite {c : Prop} [Decidable c] {yes no : Except Fault α} (hyes : c → Safe yes p)
    (hno : ¬ c → Safe no p) : Safe (if c then yes else no) p := by
  split
  · exact hyes ‹_›
  · exact hno ‹_›

theorem Safe.mapM {items : List α} {read : α → Except Fault β}
    (h : ∀ item ∈ items, Safe (read item) fun _ => True) :
    Safe (items.mapM read) fun _ => True := by
  induction items with
  | nil => trivial
  | cons item items ih =>
    rw [List.mapM_cons]
    refine (h item List.mem_cons_self).bind fun b _ => ?_
    exact (ih fun item hitem => h item (List.mem_cons_of_mem _ hitem)).bind fun bs _ => trivial

theorem safe_orMalformed (a : Option α) : Safe (orMalformed a) (a = some ·) := by
  cases a with
  | none => nofun
  | some a => rfl

/-! ### One directive -/

variable {text : Bytes}

theorem isBoundary_length (text : Bytes) : isBoundary text text.length := by
  simp [isBoundary]

theorem safe_part {first last : Nat} (hfirst : isBoundary text first)
    (hlast : isBoundary text last) : Safe (part text first last) fun _ => True := by
  rw [part, hfirst, hlast]
  trivial

/-- The part that is being read began outside of characters. -/
def Place.Aligned (text : Bytes) : Place → Prop
  | .span first => isBoundary text first
  | .field first => isBoundary text first
  | .level first => isBoundary text first
  | _ => True

theorem Draft.safe_next {d : Draft} {i : Nat} {c : Char} (hstart : isBoundary text 0)
    (hi : isBoundary text i) (hnext : isBoundary text (i + c.utf8Size))
    (hd : d.place.Aligned text) : Safe (d.next text i c) (·.place.Aligned text) := by
  obtain ⟨place, directive⟩ := d
  cases place with
  | start =>
    refine .ite (fun hc => ?_) fun _ => .ite (fun _ => trivial) fun _ => nofun
    subst hc
    exact hnext
  | target =>
    refine .ite (fun hc => ?_) fun _ => trivial
    refine (safe_part hstart hi).bind fun name _ => ?_
    simp only [Bool.or_eq_true, decide_eq_true_eq] at hc
    obtain rfl | rfl := hc
    · exact hnext
    · exact hnext
  | span first =>
    refine .ite (fun _ => (safe_part hd hi).bind fun _ _ => trivial) fun _ => ?_
    refine .ite (fun hc => ?_) fun _ => hd
    subst hc
    exact (safe_part hd hi).bind fun _ _ => hnext
  | field first =>
    refine .ite (fun _ => ?_) fun _ => hd
    refine (safe_part hd hi).bind fun field _ => ?_
    exact (safe_orMalformed _).bind fun _ _ => trivial
  | fieldEnd => exact .ite (fun _ => trivial) fun _ => nofun
  | spanEnd =>
    refine .ite (fun hc => ?_) fun _ => nofun
    subst hc
    exact hnext
  | level first => exact hd

/-- No character of these, the first of which is read at a place, is read inside of a character of
a text. -/
def Aligned (text : Bytes) : (i : Nat) → List Char → Prop
  | i, [] => isBoundary text i
  | i, c :: rest => isBoundary text i ∧ Aligned text (i + c.utf8Size) rest

theorem Aligned.start {i : Nat} {chars : List Char} (h : Aligned text i chars) :
    isBoundary text i := by
  cases chars with
  | nil => exact h
  | cons c rest => exact h.1

theorem Draft.safe_read (hstart : isBoundary text 0) {d : Draft} {i : Nat} {chars : List Char}
    (hchars : Aligned text i chars) (hd : d.place.Aligned text) :
    Safe (d.read text i chars) (·.place.Aligned text) := by
  induction chars generalizing d i with
  | nil => exact hd
  | cons c rest ih =>
    obtain ⟨hi, hrest⟩ := hchars
    exact (safe_next hstart hi hrest.start hd).bind fun d hd => ih hrest hd

/-- Behind a blank, the place where a target ends may be inside of a character. -/
example : ({} : Draft).read [0x20, 0xC3, 0xA9, 0x3D] 0 ['é', '='] = .error .crash := by rfl

theorem Draft.safe_finish {d : Draft} (hd : d.place.Aligned text) :
    Safe (d.finish text) fun _ => True := by
  obtain ⟨place, directive⟩ := d
  cases place with
  | start => nofun
  | target =>
    unfold finish
    dsimp only
    split <;> trivial
  | span first => nofun
  | field first => nofun
  | fieldEnd => nofun
  | spanEnd => trivial
  | level first =>
    refine (safe_part hd (isBoundary_length text)).bind fun level _ => ?_
    split
    · trivial
    · exact (safe_orMalformed _).bind fun _ _ => trivial

theorem Directive.safe_read {text : List Char}
    (h : Aligned (bytesOf (String.ofList text)) 0 (Text.trim text)) :
    Safe (Directive.read text) fun _ => True :=
  (Draft.safe_read (d := {}) h.start h trivial).bind fun _ hd => Draft.safe_finish hd

/-! ### Directives that are read where they stand -/

/-- A character's first byte is none that goes on with a character. -/
theorem exists_utf8EncodeChar_eq_cons (c : Char) :
    ∃ b rest, String.utf8EncodeChar c = b :: rest ∧ (b < 0x80 ∨ 0xC0 ≤ b) := by
  unfold String.utf8EncodeChar
  simp only
  split_ifs
  all_goals
    refine ⟨_, _, rfl, ?_⟩
    simp only [UInt8.lt_iff_toNat_lt, UInt8.le_iff_toNat_le, UInt8.toNat_ofNat', UInt8.reduceToNat]
    omega

theorem isBoundary_flatMap (before after : List Char) :
    isBoundary ((before ++ after).flatMap String.utf8EncodeChar)
      (before.flatMap String.utf8EncodeChar).length := by
  rw [isBoundary, List.flatMap_append, List.getElem?_append_right (Nat.le_refl _), Nat.sub_self]
  cases after with
  | nil => rfl
  | cons c after =>
    obtain ⟨b, rest, hbytes, hb⟩ := exists_utf8EncodeChar_eq_cons c
    simpa [hbytes] using hb

/-- Characters are read where they stand in the bytes of a text. -/
theorem aligned_flatMap (before chars after : List Char) :
    Aligned ((before ++ (chars ++ after)).flatMap String.utf8EncodeChar)
      (before.flatMap String.utf8EncodeChar).length chars := by
  induction chars generalizing before with
  | nil => exact isBoundary_flatMap before after
  | cons c chars ih =>
    refine ⟨isBoundary_flatMap before _, ?_⟩
    have h := ih (before ++ [c])
    simpa using h

theorem exists_eq_trim_append {text : List Char} (h : text.head?.any Text.isBlank = false) :
    ∃ blanks, text = Text.trim text ++ blanks := by
  have hfront : text.dropWhile Text.isBlank = text := by
    cases text with
    | nil => rfl
    | cons c rest => exact List.dropWhile_cons_of_neg (by simpa using h)
  refine ⟨(text.reverse.takeWhile Text.isBlank).reverse, ?_⟩
  rw [Text.trim, hfront, ← List.reverse_append, List.takeWhile_append_dropWhile,
    List.reverse_reverse]

theorem bytesOf_ofList (chars : List Char) :
    bytesOf (String.ofList chars) = chars.flatMap String.utf8EncodeChar := by
  rw [bytesOf_eq_flatMap, String.toList_ofList]

/-- A directive without blanks in front is read where it stands. -/
theorem aligned_trim {text : List Char} (h : text.head?.any Text.isBlank = false) :
    Aligned (bytesOf (String.ofList text)) 0 (Text.trim text) := by
  obtain ⟨blanks, htext⟩ := exists_eq_trim_append h
  have haligned := aligned_flatMap [] (Text.trim text) blanks
  rw [List.nil_append, ← htext] at haligned
  rw [bytesOf_ofList]
  exact haligned

/-! ### Directives in ASCII -/

theorem lt_of_mem_bytesOf {text : List Char} (h : ∀ c ∈ text, c.toNat < 0x80) :
    ∀ b ∈ bytesOf (String.ofList text), b < 0x80 := by
  intro b hb
  rw [bytesOf_ofList, List.mem_flatMap] at hb
  obtain ⟨c, hc, hb⟩ := hb
  have hlt : c.val.toNat < 0x80 := h c hc
  rw [String.utf8EncodeChar, if_pos (Nat.le_of_lt_succ hlt), List.mem_singleton] at hb
  rw [hb, UInt8.lt_iff_toNat_lt, UInt8.toNat_ofNat']
  exact Nat.lt_of_le_of_lt (Nat.mod_le _ _) hlt

/-- Among ASCII characters, no place is inside of a character. -/
theorem aligned_of_ascii {text : Bytes} (h : ∀ b ∈ text, b < 0x80) (i : Nat) (chars : List Char) :
    Aligned text i chars := by
  have hplace (i : Nat) : isBoundary text i := by
    unfold isBoundary
    split
    · next b hb => simp [h b (List.mem_of_getElem? hb)]
    · rfl
  induction chars generalizing i with
  | nil => exact hplace i
  | cons c rest ih => exact ⟨hplace i, ih _⟩

/-! ### Filters -/

/-- The reader comes back from a text if each of its directives has no blanks in front or is in
ASCII. -/
theorem Filter.returns_read {bytes : Bytes}
    (h : ∀ text, Text.decoded? bytes = some text → ∀ item ∈ items text.toList,
      item.head?.any Text.isBlank = false ∨ ∀ c ∈ item, c.toNat < 0x80) :
    Filter.read.Returns (some bytes) := by
  refine Safe.ne_crash (p := fun _ => True) ?_
  refine (safe_orMalformed _).bind fun text htext => ?_
  have hitems : Safe ((items text.toList).mapM Directive.read) fun _ => True := by
    refine .mapM fun item hitem => Directive.safe_read ?_
    obtain hfront | hascii := h text htext item hitem
    · exact aligned_trim hfront
    · exact aligned_of_ascii (lt_of_mem_bytesOf hascii) 0 _
  split
  · trivial
  · exact hitems.bind fun _ _ => trivial

end LinearLight.Log
