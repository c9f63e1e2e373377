import LinearLight.Destination
import LinearLight.Text.Controls

/-!
# The command line

Arguments are read from left to right. Options are `--help`, `--version` and `--verbose`, or their
letters behind one dash, several of them together if wanted. A lone dash, and whatever comes after
two dashes, is positional. Reading ends at the first fault, or where help or the version is asked
for.

## Main definitions

- `CommandLine.Options`: what a complete command line says
- `CommandLine.Stop`: why reading ended early
- `CommandLine.parse`: the reading of arguments
-/

namespace LinearLight.CommandLine

/-- What a complete command line says: where the artifacts go, and how much is logged. -/
structure Options where
  source : Destination
  header : Destination
  verbosity : Nat
deriving DecidableEq

inductive UsageError where
  | unexpectedArgument (shown : String)
  | unexpectedValue (value : String) (option : String)
  | missing (names : List String)
deriving DecidableEq

/-- Why a command line was not read to its end, or not accepted there. -/
inductive Stop where
  | shortHelp
  | longHelp
  | version
  | usage (error : UsageError)
deriving DecidableEq

/-- What has been read: how often more logging was asked for, and the positionals in order. -/
structure Reading where
  verbosity : Nat := 0
  positionals : List Bytes := []
deriving DecidableEq

def positionalNames : List String := ["<C_OUTPUT>", "<H_OUTPUT>"]

/-- More than this often, asking for more logging makes no difference. -/
def verbosityLimit : Nat := 255

def dash : UInt8 := 0x2D

/-- The byte between a long option's name and its value. -/
def equalsSign : UInt8 := 0x3D

namespace Reading

def louder (r : Reading) : Reading :=
  { r with verbosity := min (r.verbosity + 1) verbosityLimit }

/-- One more positional, if there is a place for it. -/
def positional (r : Reading) (argument : Bytes) : Except Stop Reading :=
  if r.positionals.length < positionalNames.length then
    .ok { r with positionals := r.positionals ++ [argument] }
  else .error (.usage (.unexpectedArgument (Text.lossy argument)))

/-- A long option, its name and its value, if any, still together. -/
def long (r : Reading) (option : Bytes) : Except Stop Reading :=
  let (name, value) := option.span (· ≠ equalsSign)
  if name = bytesOf "help" then refuseValue value "--help" (.error .longHelp)
  else if name = bytesOf "version" then refuseValue value "--version" (.error .version)
  else if name = bytesOf "verbose" then refuseValue value "--verbose..." (.ok r.louder)
  else .error (.usage (.unexpectedArgument ("--" ++ Text.lossy name)))
where
  /-- The answer to an option that takes no value. -/
  refuseValue (value : Bytes) (option : String) (answer : Except Stop Reading) :
      Except Stop Reading :=
    match value with
    | [] => answer
    | _ :: value => .error (.usage (.unexpectedValue (Text.lossy value) option))

/-- The letters behind one dash, read one after the other. What is not text is shown up to the end
of the argument. -/
def letters (r : Reading) : List Text.Piece → Except Stop Reading
  | [] => .ok r
  | .char c :: rest =>
    if c = 'v' then r.louder.letters rest
    else if c = 'h' then .error .shortHelp
    else if c = 'V' then .error .version
    else .error (.usage (.unexpectedArgument (String.ofList ['-', c])))
  | .bad bytes :: rest =>
    .error (.usage (.unexpectedArgument
      (String.ofList ('-' :: (Text.Piece.bad bytes :: rest).map Text.Piece.shown))))

/-- One argument before any two dashes. -/
def argument (r : Reading) (argument : Bytes) : Except Stop Reading :=
  match argument with
  | [] => r.positional argument
  | first :: rest =>
    if first ≠ dash ∨ rest.isEmpty then r.positional argument
    else
      match rest with
      | second :: name => if second = dash then r.long name else r.letters (Text.pieces rest)
      | [] => r.positional argument

def arguments (r : Reading) : List Bytes → Except Stop Reading
  | [] => .ok r
  | next :: rest =>
    if next = [dash, dash] then rest.foldlM positional r
    else do
      let r ← r.argument next
      r.arguments rest

def options (r : Reading) : Except Stop Options :=
  match r.positionals with
  | [source, header] => .ok ⟨.ofArgument source, .ofArgument header, r.verbosity⟩
  | given => .error (.usage (.missing (positionalNames.drop given.length)))

end Reading

def parse (arguments : List Bytes) : Except Stop Options := do
  let r ← ({} : Reading).arguments arguments
  r.options

/-- The text for a faulty command line. What is repeated of it cannot command a terminal. -/
def UsageError.text : UsageError → String
  | unexpectedArgument shown =>
    "error: unexpected argument '" ++ Text.withoutControls shown ++ "' found\n"
  | unexpectedValue value option =>
    "error: unexpected value '" ++ Text.withoutControls value ++ "' for '" ++ option ++
      "' found; no more were expected\n"
  | missing names =>
    "error: the following required arguments were not provided:\n" ++
      String.join (names.map fun name => "  " ++ name ++ "\n")

end LinearLight.CommandLine
