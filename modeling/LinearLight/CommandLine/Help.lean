/-!
# Help and version

The texts shown when they are asked for, and nothing is generated.

## Main definitions

- `CommandLine.shortHelp`, `CommandLine.longHelp`, `CommandLine.versionText`
-/

namespace LinearLight.CommandLine

def programName : String := "srgb-gen"

def versionText : String := programName ++ " 0.1.0\n"

def usageLine : String := "Usage: " ++ programName ++ " [OPTIONS] <C_OUTPUT> <H_OUTPUT>\n"

/-- A line for each argument and option. -/
def shortHelp : String :=
  "Generate sRGB to linear lookup tables as C source\n" ++
  "\n" ++
  usageLine ++
  "\n" ++
  "Arguments:\n" ++
  "  <C_OUTPUT>  Output C source file ('-' for stdout)\n" ++
  "  <H_OUTPUT>  Output header file ('-' for stdout)\n" ++
  "\n" ++
  "Options:\n" ++
  "  -v, --verbose...  Verbose output (-v info, -vv debug, -vvv trace)\n" ++
  "  -h, --help        Print help (see more with '--help')\n" ++
  "  -V, --version     Print version\n"

/-- What the program does, examples, and a paragraph for each argument and option. -/
def longHelp : String :=
  "Generates two lookup tables mapping 8-bit sRGB values to linear light\n" ++
  "(gamma 2.2), at 16-bit and 8-bit output precision, as a C source file\n" ++
  "and the matching header.\n" ++
  "\n" ++
  "Examples:\n" ++
  "  srgb-gen srgb.c srgb.h            # Write both files\n" ++
  "  srgb-gen - srgb.h > srgb.c        # Source to stdout\n" ++
  "  RUST_LOG=debug srgb-gen srgb.c srgb.h\n" ++
  "\n" ++
  "\n" ++
  usageLine ++
  "\n" ++
  "Arguments:\n" ++
  "  <C_OUTPUT>\n" ++
  "          Output C source file ('-' for stdout)\n" ++
  "\n" ++
  "  <H_OUTPUT>\n" ++
  "          Output header file ('-' for stdout)\n" ++
  "\n" ++
  "Options:\n" ++
  "  -v, --verbose...\n" ++
  "          Verbose output (-v info, -vv debug, -vvv trace)\n" ++
  "\n" ++
  "  -h, --help\n" ++
  "          Print help (see a summary with '-h')\n" ++
  "\n" ++
  "  -V, --version\n" ++
  "          Print version\n"

end LinearLight.CommandLine
