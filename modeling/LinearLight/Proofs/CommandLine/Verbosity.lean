import LinearLight.CommandLine
import LinearLight.Proofs.Bytes

/-!
# Asking for more logging changes nothing else

Arguments that only ask for more logging can be left out of a command line. What is read besides is
the same without them: the positionals, or the reason why the reading ended early. By induction on
the arguments, for two readings that may differ in the verbosity they have gathered.

## Main definitions

- `CommandLine.asksForLogging`: an argument does nothing but ask for more logging
- `CommandLine.withoutVerbosity`: a command line without such arguments
- `CommandLine.told`, `CommandLine.Options.outlets`: what is read besides the verbosity

## Main statements

- `CommandLine.withoutVerbosity_insert`: one such argument, anywhere in front of two dashes
- `CommandLine.parse_withoutVerbosity`
-/

namespace LinearLight.CommandLine

variable {r r' : Reading}

/-- The letter that asks for more logging. -/
def verboseLetter : UInt8 := 0x76

/-- An argument that does nothing but ask for more logging: the long option, or a dash with the
letter for it, once or more. -/
def asksForLogging (argument : Bytes) : Bool :=
  argument = bytesOf "--verbose" ||
    (2 ≤ argument.length && argument = dash :: List.replicate (argument.length - 1) verboseLetter)

/-- A command line without the arguments that ask for more logging. Behind two dashes there are
none. -/
def withoutVerbosity : List Bytes → List Bytes
  | [] => []
  | next :: rest =>
    if next = [dash, dash] then next :: rest
    else if asksForLogging next then withoutVerbosity rest
    else next :: withoutVerbosity rest

/-- What a reading tells besides the verbosity. -/
def told (x : Except Stop Reading) : Except Stop (List Bytes) := x.map Reading.positionals

/-- What the options tell besides the verbosity. -/
def Options.outlets (o : Options) : Destination × Destination := (o.source, o.header)

theorem bytesOf_verbose : bytesOf "--verbose" = dash :: dash :: bytesOf "verbose" := by
  rw [bytesOf_eq_flatMap, bytesOf_eq_flatMap]
  rfl

theorem ne_dashes_of_asksForLogging {argument : Bytes} (h : asksForLogging argument = true) :
    argument ≠ [dash, dash] := by
  rintro rfl
  rw [asksForLogging, bytesOf_verbose, bytesOf_eq_flatMap] at h
  exact absurd h (by decide)

/-- An argument that asks for more logging makes no difference where it is inserted. -/
theorem withoutVerbosity_insert {before : List Bytes} {argument : Bytes}
    (hbefore : [dash, dash] ∉ before) (h : asksForLogging argument = true) (after : List Bytes) :
    withoutVerbosity (before ++ argument :: after) = withoutVerbosity (before ++ after) := by
  induction before with
  | nil => rw [List.nil_append, List.nil_append, withoutVerbosity,
      if_neg (ne_dashes_of_asksForLogging h), if_pos h]
  | cons next before ih =>
    obtain ⟨hnext, hbefore⟩ := not_or.mp (mt List.mem_cons.mpr hbefore)
    rw [List.cons_append, List.cons_append, withoutVerbosity, withoutVerbosity, ih hbefore,
      if_neg (Ne.symm hnext), if_neg (Ne.symm hnext)]

/-! ### What each step tells -/

/-- What comes after two readings that tell the same, told alike of any two such readings. -/
theorem map_bind_congr {α β : Type} {x x' : Except Stop Reading} {f g : Reading → Except Stop α}
    {out : α → β} (hx : told x = told x')
    (hfg : ∀ r r', r.positionals = r'.positionals → (f r).map out = (g r').map out) :
    (x >>= f).map out = (x' >>= g).map out := by
  cases x with
  | error e =>
    cases x' with
    | error e' => exact congrArg Except.error (Except.error.inj hx)
    | ok r' => exact nomatch hx
  | ok r =>
    cases x' with
    | error e' => exact nomatch hx
    | ok r' => exact hfg r r' (Except.ok.inj hx)

theorem told_positional (h : r.positionals = r'.positionals) (argument : Bytes) :
    told (r.positional argument) = told (r'.positional argument) := by
  unfold Reading.positional
  rw [h]
  split
  · simp [told, Except.map]
  · rfl

theorem told_refuseValue {x x' : Except Stop Reading} (h : told x = told x') (value : Bytes)
    (option : String) : told (Reading.long.refuseValue value option x) =
      told (Reading.long.refuseValue value option x') := by
  cases value with
  | nil => exact h
  | cons _ value => rfl

theorem told_louder (h : r.positionals = r'.positionals) :
    told (.ok r.louder) = told (.ok r'.louder) :=
  congrArg Except.ok h

theorem told_long (h : r.positionals = r'.positionals) (option : Bytes) :
    told (r.long option) = told (r'.long option) := by
  simp only [Reading.long]
  split
  · exact told_refuseValue rfl _ _
  · split
    · exact told_refuseValue rfl _ _
    · split
      · exact told_refuseValue (told_louder h) _ _
      · rfl

theorem told_letters (h : r.positionals = r'.positionals) (pieces : List Text.Piece) :
    told (r.letters pieces) = told (r'.letters pieces) := by
  induction pieces generalizing r r' with
  | nil => exact congrArg Except.ok h
  | cons piece rest ih =>
    cases piece with
    | bad bytes => rfl
    | char c =>
      simp only [Reading.letters]
      split
      · exact ih h
      · split
        · rfl
        · split <;> rfl

theorem told_argument (h : r.positionals = r'.positionals) (argument : Bytes) :
    told (r.argument argument) = told (r'.argument argument) := by
  unfold Reading.argument
  split
  · exact told_positional h _
  · split
    · exact told_positional h _
    · split
      · split
        · exact told_long h _
        · exact told_letters h _
      · exact told_positional h _

theorem told_positionals (h : r.positionals = r'.positionals) (arguments : List Bytes) :
    told (arguments.foldlM Reading.positional r) =
      told (arguments.foldlM Reading.positional r') := by
  induction arguments generalizing r r' with
  | nil => exact congrArg Except.ok h
  | cons next rest ih =>
    rw [List.foldlM_cons, List.foldlM_cons]
    exact map_bind_congr (told_positional h next) fun _ _ => ih

/-! ### Arguments left out -/

/-- Letters that only ask for more logging are read to their end. -/
theorem exists_letters (r : Reading) (count : Nat) :
    ∃ r', r.letters (List.replicate count (.char 'v')) = .ok r' ∧
      r'.positionals = r.positionals := by
  induction count generalizing r with
  | zero => exact ⟨r, rfl, rfl⟩
  | succ count ih =>
    obtain ⟨r', hletters, hpositionals⟩ := ih r.louder
    exact ⟨r', hletters, hpositionals⟩

theorem pieces_replicate (count : Nat) :
    Text.pieces (List.replicate count verboseLetter) = List.replicate count (.char 'v') := by
  induction count with
  | zero => rfl
  | succ count ih =>
    rw [List.replicate_succ, List.replicate_succ, ← ih]
    rfl

theorem long_verbose (r : Reading) : r.long (bytesOf "verbose") = .ok r.louder := by
  simp only [Reading.long, bytesOf_eq_flatMap]
  rfl

/-- An argument that asks for more logging leaves the positionals as they are. -/
theorem exists_argument (r : Reading) {argument : Bytes} (h : asksForLogging argument = true) :
    ∃ r', r.argument argument = .ok r' ∧ r'.positionals = r.positionals := by
  rw [asksForLogging, Bool.or_eq_true, Bool.and_eq_true] at h
  obtain hlong | ⟨hlength, hletters⟩ := h
  · refine ⟨r.louder, ?_, rfl⟩
    rw [of_decide_eq_true hlong, bytesOf_verbose, ← long_verbose r]
    rfl
  · obtain ⟨count, hcount⟩ := Nat.exists_eq_add_of_le' (of_decide_eq_true hlength)
    obtain ⟨r', hread, hpositionals⟩ := exists_letters r (count + 1)
    refine ⟨r', ?_, hpositionals⟩
    rw [of_decide_eq_true hletters, hcount, ← hread, ← pieces_replicate]
    rfl

/-- What is read besides the verbosity is the same without the arguments that ask for it. -/
theorem told_arguments (h : r.positionals = r'.positionals) (arguments : List Bytes) :
    told (r.arguments arguments) = told (r'.arguments (withoutVerbosity arguments)) := by
  induction arguments generalizing r r' with
  | nil => exact congrArg Except.ok h
  | cons next rest ih =>
    by_cases hdashes : next = [dash, dash]
    · rw [withoutVerbosity, if_pos hdashes, Reading.arguments, Reading.arguments, if_pos hdashes,
        if_pos hdashes]
      exact told_positionals h rest
    · rw [Reading.arguments, if_neg hdashes, withoutVerbosity, if_neg hdashes]
      by_cases hasks : asksForLogging next = true
      · obtain ⟨louder, hread, hpositionals⟩ := exists_argument r hasks
        rw [if_pos hasks, hread]
        exact ih (hpositionals.trans h)
      · rw [if_neg hasks, Reading.arguments, if_neg hdashes]
        exact map_bind_congr (told_argument h next) fun _ _ => ih

theorem outlets_options (h : r.positionals = r'.positionals) :
    r.options.map Options.outlets = r'.options.map Options.outlets := by
  unfold Reading.options
  rw [h]
  split <;> rfl

/-- Arguments that ask for more logging decide neither where the artifacts go nor why a command line
is not accepted. -/
theorem parse_withoutVerbosity (arguments : List Bytes) :
    (parse arguments).map Options.outlets =
      (parse (withoutVerbosity arguments)).map Options.outlets :=
  map_bind_congr (told_arguments rfl arguments) fun _ _ => outlets_options

end LinearLight.CommandLine
