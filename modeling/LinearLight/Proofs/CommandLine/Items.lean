import LinearLight.Proofs.CommandLine.Verbosity
import LinearLight.Proofs.Except
import LinearLight.Proofs.Text.Utf8
import Mathlib.Data.List.TakeDrop
import Mathlib.Data.List.TakeWhile

/-!
# The items of a command line

A command line is laid out as its items, from left to right: a positional, a long option, or each
letter behind one dash. Reading arguments is reading their items, up to the text of a usage error.
Items are read one by one, so the reading ends at the first one that asks for an answer, is at
fault, or is a positional without a place.

## Main definitions

- `CommandLine.Item`, `CommandLine.items`: a command line, item by item
- `CommandLine.Reading.item`: the reading of one item

## Main statements

- `CommandLine.foldlM_item_eq_ok`, `CommandLine.foldlM_item_eq_answer`: how items are read
- `CommandLine.mapError_arguments`: arguments are read as their items are
-/

namespace LinearLight.CommandLine

/-! ### Command lines and their items -/

/-- What can be asked for in place of the artifacts. -/
inductive Answer where
  | shortHelp
  | longHelp
  | version
deriving DecidableEq

def Answer.stop : Answer → Stop
  | shortHelp => .shortHelp
  | longHelp => .longHelp
  | version => .version

def Stop.answer? : Stop → Option Answer
  | shortHelp => some .shortHelp
  | longHelp => some .longHelp
  | version => some .version
  | usage _ => none

/-- What an argument, or one letter of it, is to the reading. -/
inductive Item where
  | positional (argument : Bytes)
  | louder
  | answer (answer : Answer)
  | fault
deriving DecidableEq

/-- The reading goes on behind this item, unless there are too many positionals. -/
def Item.isPlain : Item → Bool
  | positional _ => true
  | louder => true
  | answer _ => false
  | fault => false

def Item.positional? : Item → Option Bytes
  | positional argument => some argument
  | _ => none

def helpLetter : UInt8 := 0x68

def versionLetter : UInt8 := 0x56

/-- A lone dash, or an argument, maybe an empty one, that does not begin with a dash. -/
def isPositional (argument : Bytes) : Bool := argument = [dash] || argument.head? ≠ some dash

def letterItem (letter : UInt8) : Item :=
  if letter = verboseLetter then .louder
  else if letter = helpLetter then .answer .shortHelp
  else if letter = versionLetter then .answer .version
  else .fault

/-- The item that a long option is, without the dashes. One with a value is none that exists. -/
def longItem (option : Bytes) : Item :=
  if option = bytesOf "help" then .answer .longHelp
  else if option = bytesOf "version" then .answer .version
  else if option = bytesOf "verbose" then .louder
  else .fault

def argumentItems (argument : Bytes) : List Item :=
  if isPositional argument then [.positional argument]
  else if argument.tail.head? = some dash then [longItem (argument.drop 2)]
  else argument.tail.map letterItem

/-- The arguments in front of the first two dashes. -/
def front (arguments : List Bytes) : List Bytes := arguments.takeWhile (· ≠ [dash, dash])

/-- The arguments behind the first two dashes. -/
def behind (arguments : List Bytes) : List Bytes := (arguments.dropWhile (· ≠ [dash, dash])).tail

/-- A command line, item by item. Whatever stands behind the two dashes is positional. -/
def items (arguments : List Bytes) : List Item :=
  (front arguments).flatMap argumentItems ++ (behind arguments).map .positional

/-! ### Reading items -/

/-- The reading of one item, without the text of a usage error. -/
def Reading.item (r : Reading) : Item → Except (Option Answer) Reading
  | .positional argument =>
    if r.positionals.length < 2 then .ok { r with positionals := r.positionals ++ [argument] }
    else .error none
  | .louder => .ok r.louder
  | .answer answer => .error (some answer)
  | .fault => .error none

/-- What items in sequence add to a reading. -/
def Reading.after (r : Reading) (items : List Item) : Reading where
  verbosity := min (r.verbosity + items.count .louder) verbosityLimit
  positionals := r.positionals ++ items.filterMap Item.positional?

variable {r r' : Reading}

theorem after_nil (hr : r.verbosity ≤ verbosityLimit) : r.after [] = r := by
  simp [Reading.after, hr]

theorem after_cons (r : Reading) (i : Item) (items : List Item) :
    r.after (i :: items) = (r.after [i]).after items := by
  rw [← List.singleton_append]
  simp only [Reading.after, List.count_append, List.filterMap_append, List.append_assoc,
    Reading.mk.injEq, and_true]
  omega

/-- One item is read if it is plain and there is a place for it. -/
theorem item_eq_ok {i : Item} (hr : r.verbosity ≤ verbosityLimit)
    (hplaces : r.positionals.length ≤ 2) :
    r.item i = .ok r' ↔
      i.isPlain ∧ (r.after [i]).positionals.length ≤ 2 ∧ r' = r.after [i] := by
  cases i with
  | positional argument =>
    have hafter : r.after [.positional argument] =
        { r with positionals := r.positionals ++ [argument] } := by
      simp [Reading.after, Item.positional?, hr]
    rw [hafter, Reading.item]
    split <;> simp [Item.isPlain, eq_comm] <;> omega
  | louder =>
    have hafter : r.after [.louder] = r.louder := by
      simp [Reading.after, Reading.louder, Item.positional?]
    rw [hafter, Reading.item]
    exact ⟨fun h => ⟨rfl, hplaces, (Except.ok.inj h).symm⟩, fun ⟨_, _, h⟩ => congrArg _ h.symm⟩
  | answer answer => simp [Reading.item, Item.isPlain]
  | fault => simp [Reading.item, Item.isPlain]

/-- Items are read to their end if all of them are plain and there is a place for each
positional. -/
theorem foldlM_item_eq_ok {items : List Item} (hr : r.verbosity ≤ verbosityLimit)
    (hplaces : r.positionals.length ≤ 2) :
    items.foldlM Reading.item r = .ok r' ↔ (∀ i ∈ items, i.isPlain) ∧
      (r.after items).positionals.length ≤ 2 ∧ r' = r.after items := by
  induction items generalizing r with
  | nil =>
    rw [List.foldlM_nil, after_nil hr]
    exact ⟨fun h => ⟨by simp, hplaces, (Except.ok.inj h).symm⟩, fun ⟨_, _, h⟩ => congrArg _ h.symm⟩
  | cons i items ih =>
    have hle (items : List Item) : (r.after items).verbosity ≤ verbosityLimit :=
      Nat.min_le_right _ _
    have hgrows : (r.after [i]).positionals.length ≤ (r.after (i :: items)).positionals.length := by
      rw [after_cons r i items]
      exact (List.prefix_append _ _).length_le
    rw [List.foldlM_cons, bind_eq_ok, List.forall_mem_cons]
    constructor
    · rintro ⟨next, hnext, hread⟩
      obtain ⟨hplain, hplace, rfl⟩ := (item_eq_ok hr hplaces).mp hnext
      obtain ⟨hrest, hplaces', rfl⟩ := (ih (hle _) hplace).mp hread
      rw [after_cons r i items]
      exact ⟨⟨hplain, hrest⟩, hplaces', rfl⟩
    · rintro ⟨⟨hplain, hrest⟩, hplaces', rfl⟩
      have hplace := Nat.le_trans hgrows hplaces'
      refine ⟨_, (item_eq_ok hr hplaces).mpr ⟨hplain, hplace, rfl⟩, ?_⟩
      rw [after_cons] at hplaces'
      exact (ih (hle _) hplace).mpr ⟨hrest, hplaces', after_cons r i items⟩

theorem item_eq_answer {i : Item} {answer : Answer} :
    r.item i = .error (some answer) ↔ i = .answer answer := by
  cases i with
  | positional argument =>
    rw [Reading.item]
    split <;> simp
  | louder => simp [Reading.item]
  | answer other => simp [Reading.item]
  | fault => simp [Reading.item]

/-- An answer is given if it is asked for behind items that are read. -/
theorem foldlM_item_eq_answer {items : List Item} {answer : Answer}
    (hr : r.verbosity ≤ verbosityLimit) (hplaces : r.positionals.length ≤ 2) :
    items.foldlM Reading.item r = .error (some answer) ↔ ∃ read rest,
      items = read ++ .answer answer :: rest ∧ (∀ i ∈ read, i.isPlain) ∧
        (r.after read).positionals.length ≤ 2 := by
  simp only [foldlM_eq_error, foldlM_item_eq_ok hr hplaces, item_eq_answer]
  constructor
  · rintro ⟨read, i, rest, r', rfl, ⟨hplain, hplaces', rfl⟩, rfl⟩
    exact ⟨read, rest, rfl, hplain, hplaces'⟩
  · rintro ⟨read, rest, rfl, hplain, hplaces'⟩
    exact ⟨read, _, rest, _, rfl, ⟨hplain, hplaces', rfl⟩, rfl⟩

/-! ### The shapes of an argument -/

theorem argument_cases (argument : Bytes) :
    isPositional argument = true ∨ (∃ name, argument = dash :: dash :: name) ∨
      ∃ letter letters, letter ≠ dash ∧ argument = dash :: letter :: letters := by
  match argument with
  | [] => exact .inl rfl
  | [first] => exact .inl (by simp [isPositional])
  | first :: second :: rest =>
    by_cases hfirst : first = dash
    · rw [hfirst]
      by_cases hsecond : second = dash
      · exact .inr (.inl ⟨rest, by rw [hsecond]⟩)
      · exact .inr (.inr ⟨second, rest, hsecond, rfl⟩)
    · exact .inl (by simp [isPositional, hfirst])

theorem argumentItems_of_isPositional {argument : Bytes} (h : isPositional argument = true) :
    argumentItems argument = [.positional argument] :=
  if_pos h

theorem argumentItems_long (name : Bytes) :
    argumentItems (dash :: dash :: name) = [longItem name] := by
  simp [argumentItems, isPositional]

theorem argumentItems_letters {letter : UInt8} (hletter : letter ≠ dash) (letters : Bytes) :
    argumentItems (dash :: letter :: letters) = (letter :: letters).map letterItem := by
  simp [argumentItems, isPositional, hletter]

theorem asksForLogging_of_isPositional {argument : Bytes} (h : isPositional argument = true) :
    asksForLogging argument = false := by
  rw [asksForLogging, bytesOf_verbose, Bool.or_eq_false_iff, ← Bool.not_eq_true, ← Bool.not_eq_true,
    Bool.and_eq_true, decide_eq_true_iff, decide_eq_true_iff, decide_eq_true_iff]
  constructor
  · rintro rfl
    simp [isPositional] at h
  · rintro ⟨hlength, hletters⟩
    obtain ⟨count, hcount⟩ := Nat.exists_eq_add_of_le' hlength
    rw [hletters, hcount] at h
    simp [isPositional, List.replicate_succ] at h

theorem asksForLogging_long (name : Bytes) :
    asksForLogging (dash :: dash :: name) = true ↔ name = bytesOf "verbose" := by
  rw [asksForLogging, bytesOf_verbose]
  simp [List.replicate_succ, show dash ≠ verboseLetter by decide]

theorem asksForLogging_letters {letter : UInt8} (hletter : letter ≠ dash) (letters : Bytes) :
    asksForLogging (dash :: letter :: letters) = true ↔
      ∀ l ∈ letter :: letters, l = verboseLetter := by
  rw [asksForLogging, bytesOf_verbose]
  simp [hletter, List.replicate_succ, List.eq_replicate_iff]

/-! ### Arguments as items -/

theorem mapError_positional (r : Reading) (argument : Bytes) :
    (r.positional argument).mapError Stop.answer? = r.item (.positional argument) := by
  rw [Reading.positional, Reading.item]
  split
  · rw [if_pos ‹_›]
    rfl
  · rw [if_neg ‹_›]
    rfl

/-- No long option has the sign in its name that ends a name. -/
theorem longItem_of_mem {option : Bytes} (h : equalsSign ∈ option) : longItem option = .fault := by
  have hne (name : String) (hname : equalsSign ∉ bytesOf name) : option ≠ bytesOf name :=
    fun heq => hname (heq ▸ h)
  rw [longItem, if_neg (hne _ _), if_neg (hne _ _), if_neg (hne _ _)]
  all_goals
    rw [bytesOf_eq_flatMap]
    decide

theorem mapError_long (r : Reading) (option : Bytes) :
    (r.long option).mapError Stop.answer? = r.item (longItem option) := by
  rw [Reading.long, List.span_eq_takeWhile_dropWhile]
  dsimp only
  by_cases hvalue : equalsSign ∈ option
  · have hsome : option.dropWhile (fun b => decide (b ≠ equalsSign)) ≠ [] := fun hnil => by
      simpa using List.dropWhile_eq_nil_iff.mp hnil equalsSign hvalue
    obtain ⟨sign, value, hcons⟩ := List.exists_cons_of_ne_nil hsome
    rw [hcons, longItem_of_mem hvalue]
    simp only [Reading.long.refuseValue]
    split_ifs <;> rfl
  · have hall : ∀ b ∈ option, decide (b ≠ equalsSign) = true := fun b hb =>
      decide_eq_true fun heq => hvalue (heq ▸ hb)
    rw [List.takeWhile_eq_self_iff.mpr hall, List.dropWhile_eq_nil_iff.mpr hall, longItem]
    simp only [Reading.long.refuseValue]
    split_ifs <;> rfl

theorem mapError_letters (r : Reading) (letters : Bytes) :
    (r.letters (Text.pieces letters)).mapError Stop.answer? =
      (letters.map letterItem).foldlM Reading.item r := by
  induction letters generalizing r with
  | nil => rfl
  | cons b rest ih =>
    rw [List.map_cons, List.foldlM_cons, letterItem]
    by_cases hb : b < 0x80
    · have hv : Char.ofNat b.toNat = 'v' ↔ b = verboseLetter :=
        Text.ofNat_eq_iff hb (show verboseLetter < 0x80 by decide)
      have hh : Char.ofNat b.toNat = 'h' ↔ b = helpLetter :=
        Text.ofNat_eq_iff hb (show helpLetter < 0x80 by decide)
      have hV : Char.ofNat b.toNat = 'V' ↔ b = versionLetter :=
        Text.ofNat_eq_iff hb (show versionLetter < 0x80 by decide)
      simp only [Text.pieces_cons_of_lt hb, Reading.letters, hv, hh, hV]
      split_ifs
      · exact ih r.louder
      all_goals rfl
    · obtain ⟨p, more, hpieces, hp⟩ := Text.exists_pieces_cons (UInt8.not_lt.mp hb) rest
      rw [hpieces, if_neg, if_neg, if_neg]
      · cases p with
        | bad bytes => rfl
        | char c =>
          rw [Reading.letters, if_neg, if_neg, if_neg]
          · rfl
          all_goals
            rintro rfl
            exact hp ⟨_, rfl, by decide, by decide⟩
      all_goals
        rintro rfl
        exact hb (by decide)

theorem mapError_argument (r : Reading) (argument : Bytes) :
    (r.argument argument).mapError Stop.answer? =
      (argumentItems argument).foldlM Reading.item r := by
  obtain hpositional | ⟨name, rfl⟩ | ⟨letter, letters, hletter, rfl⟩ := argument_cases argument
  · have hargument : r.argument argument = r.positional argument := by
      match argument with
      | [] => rfl
      | [first] => simp [Reading.argument]
      | first :: second :: rest =>
        have hfirst : first ≠ dash := by simpa [isPositional] using hpositional
        simp [Reading.argument, hfirst]
    rw [hargument, mapError_positional, argumentItems_of_isPositional hpositional]
    exact (bind_pure _).symm
  · rw [argumentItems_long, Reading.argument]
    exact (mapError_long r name).trans (bind_pure _).symm
  · have hargument : r.argument (dash :: letter :: letters) =
        r.letters (Text.pieces (letter :: letters)) := by
      simp [Reading.argument, hletter]
    rw [hargument, mapError_letters, argumentItems_letters hletter]

theorem mapError_foldlM_positional (r : Reading) (arguments : List Bytes) :
    (arguments.foldlM Reading.positional r).mapError Stop.answer? =
      (arguments.map .positional).foldlM Reading.item r := by
  induction arguments generalizing r with
  | nil => rfl
  | cons next rest ih =>
    rw [List.foldlM_cons, mapError_bind, mapError_positional, List.map_cons, List.foldlM_cons]
    exact bind_congr ih

theorem items_dashes (arguments : List Bytes) :
    items ([dash, dash] :: arguments) = arguments.map .positional := by
  simp [items, front, behind]

theorem items_cons {next : Bytes} (hnext : next ≠ [dash, dash]) (arguments : List Bytes) :
    items (next :: arguments) = argumentItems next ++ items arguments := by
  simp [items, front, behind, hnext]

/-- Arguments are read as their items are. -/
theorem mapError_arguments (r : Reading) (arguments : List Bytes) :
    (r.arguments arguments).mapError Stop.answer? = (items arguments).foldlM Reading.item r := by
  induction arguments generalizing r with
  | nil => rfl
  | cons next rest ih =>
    by_cases hdashes : next = [dash, dash]
    · rw [Reading.arguments, if_pos hdashes, hdashes, items_dashes, mapError_foldlM_positional]
    · rw [Reading.arguments, if_neg hdashes, mapError_bind, mapError_argument, items_cons hdashes,
        List.foldlM_append]
      exact bind_congr ih

end LinearLight.CommandLine
