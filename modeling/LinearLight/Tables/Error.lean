import LinearLight.SystemError
import LinearLight.Tables

/-!
# Errors of tables

What can go wrong while tables are made and written.

## Main definitions

- `TableError`: the failure, with the one underneath
- `Sample.compute`: the results for a display value, or the failure
-/

namespace LinearLight

/-- A failure to make the tables or to write them. -/
inductive TableError where
  | curve (cause : OutOfRange)
  | formatting
  | io (cause : IoError)
deriving DecidableEq

namespace TableError

def cause : TableError → String
  | curve e => e.message
  | formatting => "an error occurred when formatting an argument"
  | io e => e.message

def message (e : TableError) : String :=
  (match e with
    | curve _ => "transfer function error: "
    | formatting => "formatting error: "
    | io _ => "I/O error: ") ++ e.cause

end TableError

/-- The results for a display value; a refusal is a failure to make them. -/
def Sample.compute (x : Binary64) : Except TableError Sample := (Sample.ofDisplay x).mapError .curve

end LinearLight
