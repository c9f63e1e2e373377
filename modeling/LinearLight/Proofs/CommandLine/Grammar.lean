import LinearLight.Proofs.CommandLine.Items

/-!
# The grammar of the command line

The arguments in front of the first two dashes are positionals or ask for more logging, there are
two positionals together with those behind the dashes, and what these name is taken byte for byte.
That is exactly what is accepted. The rest is told apart by whether an answer is asked for in front
of what is at fault.

## Main definitions

- `CommandLine.Accepted`: the grammar, and what a command line of it says
- `CommandLine.Reached`: help or the version is asked for in front of anything at fault

## Main statements

- `CommandLine.isPlain_items`, `CommandLine.filterMap_items`, `CommandLine.count_items`: the grammar
  in terms of items
- `CommandLine.parse_grammar`: what is accepted, answered and refused
-/

namespace LinearLight.CommandLine

/-! ### The grammar -/

def positionals (arguments : List Bytes) : List Bytes :=
  (front arguments).filter isPositional ++ behind arguments

/-- How often an argument asks for more logging: the long option once, and each letter once. -/
def timesAsked (argument : Bytes) : Nat :=
  if argument = bytesOf "--verbose" then 1
  else if asksForLogging argument then argument.count verboseLetter
  else 0

/-- How often a command line asks for more logging. -/
def asked (arguments : List Bytes) : Nat :=
  (front arguments).foldr (fun argument count => timesAsked argument + count) 0

/-- An argument names standard output when it is a lone dash, and else the file whose path has the
same bytes. -/
def Names (argument : Bytes) : Destination → Prop
  | .stdout => argument = [dash]
  | .file path => argument ≠ [dash] ∧ path.bytes = argument

/-- A command line is of the grammar, and says this. -/
structure Accepted (arguments : List Bytes) (o : Options) : Prop where
  front : ∀ a ∈ front arguments, isPositional a ∨ asksForLogging a
  outlets : ∃ c h, positionals arguments = [c, h] ∧ Names c o.source ∧ Names h o.header
  verbosity : o.verbosity = min (asked arguments) 255

/-- An answer is asked for, and nothing in front of it is at fault or a third positional. -/
def Reached (arguments : List Bytes) (answer : Answer) : Prop :=
  ∃ read rest, items arguments = read ++ .answer answer :: rest ∧ (∀ i ∈ read, i.isPlain) ∧
    (read.filterMap Item.positional?).length ≤ 2

variable {r : Reading}

/-! ### Items of the grammar -/

theorem isPlain_letterItem (letter : UInt8) :
    (letterItem letter).isPlain = true ↔ letter = verboseLetter := by
  rw [letterItem]
  split_ifs <;> simp_all [Item.isPlain]

theorem longItem_verbose : longItem (bytesOf "verbose") = .louder := by
  rw [longItem]
  simp only [bytesOf_eq_flatMap]
  rfl

theorem isPlain_longItem (name : Bytes) :
    (longItem name).isPlain = true ↔ name = bytesOf "verbose" := by
  constructor
  · rw [longItem]
    split_ifs with hhelp hversion hverbose
    · simp [Item.isPlain]
    · simp [Item.isPlain]
    · exact fun _ => hverbose
    · simp [Item.isPlain]
  · rintro rfl
    rw [longItem_verbose]
    rfl

/-- An argument is read to its end, if there is a place for it, when it is of the grammar. -/
theorem isPlain_argumentItems (argument : Bytes) :
    (∀ i ∈ argumentItems argument, i.isPlain) ↔
      isPositional argument ∨ asksForLogging argument := by
  obtain hpositional | ⟨name, rfl⟩ | ⟨letter, letters, hletter, rfl⟩ := argument_cases argument
  · rw [argumentItems_of_isPositional hpositional]
    simp [hpositional, Item.isPlain]
  · rw [argumentItems_long, asksForLogging_long, ← isPlain_longItem]
    simp [isPositional]
  · rw [argumentItems_letters hletter, asksForLogging_letters hletter, List.forall_mem_map]
    simp [isPlain_letterItem, isPositional]

theorem isPlain_items (arguments : List Bytes) :
    (∀ i ∈ items arguments, i.isPlain) ↔
      ∀ a ∈ front arguments, isPositional a ∨ asksForLogging a := by
  simp only [items, List.forall_mem_append, List.forall_mem_map, Item.isPlain, implies_true,
    and_true, ← isPlain_argumentItems, List.mem_flatMap]
  constructor
  · exact fun h a ha i hi => h i ⟨a, ha, hi⟩
  · rintro h i ⟨a, ha, hi⟩
    exact h a ha i hi

theorem positional?_letterItem (letter : UInt8) : (letterItem letter).positional? = none := by
  rw [letterItem]
  split_ifs <;> rfl

theorem positional?_longItem (name : Bytes) : (longItem name).positional? = none := by
  rw [longItem]
  split_ifs <;> rfl

theorem filterMap_argumentItems (argument : Bytes) :
    (argumentItems argument).filterMap Item.positional? = [argument].filter isPositional := by
  obtain hpositional | ⟨name, rfl⟩ | ⟨letter, letters, hletter, rfl⟩ := argument_cases argument
  · simp [argumentItems_of_isPositional hpositional, hpositional, Item.positional?]
  · simp [argumentItems_long, positional?_longItem, isPositional]
  · simp [argumentItems_letters hletter, positional?_letterItem, isPositional]

theorem filterMap_items (arguments : List Bytes) :
    (items arguments).filterMap Item.positional? = positionals arguments := by
  have hfront (arguments : List Bytes) :
      (arguments.flatMap argumentItems).filterMap Item.positional? =
        arguments.filter isPositional := by
    induction arguments with
    | nil => rfl
    | cons next rest ih =>
      rw [List.flatMap_cons, List.filterMap_append, filterMap_argumentItems, ih,
        ← List.filter_append, List.singleton_append]
  rw [items, List.filterMap_append, hfront, List.filterMap_map, positionals]
  congr 1
  exact List.filterMap_some

theorem count_letterItem (letters : Bytes) :
    (letters.map letterItem).count .louder = letters.count verboseLetter := by
  have hlouder (letter : UInt8) : letterItem letter = .louder ↔ letter = verboseLetter := by
    rw [letterItem]
    split_ifs <;> simp_all
  simp only [List.count, List.countP_map]
  exact List.countP_congr fun letter _ => by simpa using hlouder letter

theorem count_argumentItems {argument : Bytes}
    (h : isPositional argument ∨ asksForLogging argument) :
    (argumentItems argument).count .louder = timesAsked argument := by
  obtain hpositional | ⟨name, rfl⟩ | ⟨letter, letters, hletter, rfl⟩ := argument_cases argument
  · have hlong : argument ≠ bytesOf "--verbose" := by
      rintro rfl
      simp [bytesOf_verbose, isPositional] at hpositional
    rw [argumentItems_of_isPositional hpositional, timesAsked, if_neg hlong,
      if_neg (by simp [asksForLogging_of_isPositional hpositional])]
    rfl
  · have hasks := h.resolve_left (by simp [isPositional])
    obtain rfl := (asksForLogging_long name).mp hasks
    rw [argumentItems_long, longItem_verbose, timesAsked, if_pos bytesOf_verbose.symm]
    rfl
  · have hasks := h.resolve_left (by simp [isPositional])
    have hshort : dash :: letter :: letters ≠ bytesOf "--verbose" := by
      simp [bytesOf_verbose, hletter]
    rw [argumentItems_letters hletter, count_letterItem, timesAsked, if_neg hshort, if_pos hasks]
    exact (List.count_cons_of_ne (by decide)).symm

theorem count_items {arguments : List Bytes}
    (h : ∀ a ∈ front arguments, isPositional a ∨ asksForLogging a) :
    (items arguments).count .louder = asked arguments := by
  have hfront {arguments : List Bytes} (h : ∀ a ∈ arguments, isPositional a ∨ asksForLogging a) :
      (arguments.flatMap argumentItems).count .louder =
        arguments.foldr (fun argument count => timesAsked argument + count) 0 := by
    induction arguments with
    | nil => rfl
    | cons next rest ih =>
      obtain ⟨hnext, hrest⟩ := List.forall_mem_cons.mp h
      rw [List.flatMap_cons, List.count_append, count_argumentItems hnext, ih hrest,
        List.foldr_cons]
  have hbehind : ((behind arguments).map Item.positional).count .louder = 0 :=
    List.count_eq_zero.mpr (by simp)
  rw [items, List.count_append, hbehind, hfront h]
  rfl

/-! ### The grammar is what is read -/

theorem names_iff {argument : Bytes} {d : Destination} :
    Names argument d ↔ d = .ofArgument argument := by
  rw [Destination.ofArgument]
  cases d with
  | stdout =>
    split_ifs with h
    · exact ⟨fun _ => rfl, fun _ => h⟩
    · exact ⟨fun heq => absurd heq h, nofun⟩
  | file path =>
    split_ifs with h
    · exact ⟨fun ⟨hne, _⟩ => absurd h hne, nofun⟩
    · exact ⟨fun ⟨_, hpath⟩ => by rw [← hpath], fun heq => by
        obtain rfl := Destination.file.inj heq
        exact ⟨h, rfl⟩⟩

theorem options_eq_ok {o : Options} :
    r.options = .ok o ↔ (∃ c h, r.positionals = [c, h] ∧ Names c o.source ∧ Names h o.header) ∧
      o.verbosity = r.verbosity := by
  obtain ⟨source, header, verbosity⟩ := o
  simp only [names_iff]
  rw [Reading.options]
  split
  · rename_i c h hpositionals
    rw [hpositionals]
    simp [eq_comm, and_assoc]
  · rename_i hnot
    refine ⟨nofun, fun ⟨⟨c, h, hpositionals, _⟩, _⟩ => absurd hpositionals (hnot c h)⟩

theorem answer?_eq_some {s : Stop} {answer : Answer} :
    s.answer? = some answer ↔ s = answer.stop := by
  cases s <;> cases answer <;> simp [Stop.answer?, Answer.stop]

theorem after_items {arguments : List Bytes}
    (h : ∀ a ∈ front arguments, isPositional a ∨ asksForLogging a) :
    ({} : Reading).after (items arguments) =
      ⟨min (asked arguments) verbosityLimit, positionals arguments⟩ := by
  simp only [Reading.after, filterMap_items, count_items h, Nat.zero_add, List.nil_append]

theorem parse_eq_ok {arguments : List Bytes} {o : Options} :
    parse arguments = .ok o ↔ Accepted arguments o := by
  simp only [parse, bind_eq_ok, ← mapError_eq_ok (f := Stop.answer?) (x := Reading.arguments _ _),
    mapError_arguments]
  constructor
  · rintro ⟨r, hread, hoptions⟩
    obtain ⟨hplain, -, rfl⟩ := (foldlM_item_eq_ok (Nat.zero_le _) (Nat.zero_le _)).mp hread
    rw [isPlain_items] at hplain
    rw [after_items hplain, options_eq_ok] at hoptions
    exact ⟨hplain, hoptions.1, hoptions.2⟩
  · rintro ⟨hplain, ⟨c, h, htwo, hnames⟩, hverbosity⟩
    have hafter := after_items hplain
    refine ⟨({} : Reading).after (items arguments),
      (foldlM_item_eq_ok (Nat.zero_le _) (Nat.zero_le _)).mpr
        ⟨(isPlain_items arguments).mpr hplain, ?_, rfl⟩, ?_⟩
    · rw [hafter, htwo]
      exact Nat.le_refl 2
    · rw [hafter, options_eq_ok]
      exact ⟨⟨c, h, htwo, hnames⟩, hverbosity⟩

theorem parse_eq_answer {arguments : List Bytes} {answer : Answer} :
    parse arguments = .error answer.stop ↔ Reached arguments answer := by
  have hparse : parse arguments = .error answer.stop ↔
      ({} : Reading).arguments arguments = .error answer.stop := by
    rw [parse]
    cases ({} : Reading).arguments arguments with
    | error s =>
      exact ⟨fun h => congrArg _ (Except.error.inj h), fun h => congrArg _ (Except.error.inj h)⟩
    | ok r =>
      refine ⟨fun h => ?_, nofun⟩
      change r.options = .error answer.stop at h
      rw [Reading.options] at h
      split at h
      · exact nomatch h
      · cases answer <;> exact nomatch h
  have hanswer : (({} : Reading).arguments arguments).mapError Stop.answer? = .error (some answer) ↔
      ({} : Reading).arguments arguments = .error answer.stop := by
    simp [mapError_eq_error, answer?_eq_some]
  rw [hparse, ← hanswer, mapError_arguments,
    foldlM_item_eq_answer (Nat.zero_le _) (Nat.zero_le _)]
  rfl

/-- A command line of the grammar is accepted with what it says. Any other one is answered if an
answer is asked for in front of what is at fault, and is a usage error if none is. -/
theorem parse_grammar (arguments : List Bytes) :
    (∀ o, parse arguments = .ok o ↔ Accepted arguments o) ∧
      (∀ answer : Answer, parse arguments = .error answer.stop ↔ Reached arguments answer) ∧
      ((∃ e, parse arguments = .error (.usage e)) ↔
        (¬ ∃ o, Accepted arguments o) ∧ ¬ ∃ answer, Reached arguments answer) := by
  refine ⟨fun o => parse_eq_ok, fun answer => parse_eq_answer, ?_⟩
  simp only [← parse_eq_ok, ← parse_eq_answer]
  cases parse arguments with
  | ok o => exact ⟨nofun, fun ⟨hnone, _⟩ => absurd ⟨o, rfl⟩ hnone⟩
  | error s =>
    have husage : (∃ e, s = .usage e) ↔ ¬ ∃ answer : Answer, s = answer.stop := by
      simp only [← answer?_eq_some]
      cases s <;> simp [Stop.answer?]
    simpa using husage

example : parse [[dash, dash], [dash], []] = .ok ⟨.stdout, .file ⟨[]⟩, 0⟩ := rfl

example : parse [[dash, dash], [dash, dash], [0x2E, 0x2F, dash]] =
    .ok ⟨.file ⟨[dash, dash]⟩, .file ⟨[0x2E, 0x2F, dash]⟩, 0⟩ := rfl

end LinearLight.CommandLine
