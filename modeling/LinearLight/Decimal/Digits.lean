/-!
# Decimal digits of natural numbers

Writing and reading without a sign, a separator or superfluous zeros: every number has one form.

## Main definitions

- `digitsOf`: the digits of a number, most significant first
- `valueOf?`: the number that a run of digits stands for
- `canonicalValue?`: the same, for the one form that `digitsOf` writes
-/

namespace LinearLight.Decimal

def digitChar (d : Nat) : Char := Char.ofNat ('0'.toNat + d)

def digitValue? (c : Char) : Option Nat :=
  if '0' ≤ c ∧ c ≤ '9' then some (c.toNat - '0'.toNat) else none

/-- The digits of a number, most significant first; zero has one. -/
def digitsOf (n : Nat) : List Char :=
  if n < 10 then [digitChar n] else digitsOf (n / 10) ++ [digitChar (n % 10)]

/-- The number that digits stand for, after those of `value`. -/
def valueFrom? (value : Nat) : List Char → Option Nat
  | [] => some value
  | c :: rest => do
    let d ← digitValue? c
    valueFrom? (10 * value + d) rest

/-- The number that a run of at least one digit stands for. -/
def valueOf? : List Char → Option Nat
  | [] => none
  | c :: rest => valueFrom? 0 (c :: rest)

/-- The number that a run of digits stands for, if the run is the one written for it. -/
def canonicalValue? (text : List Char) : Option Nat := do
  let n ← valueOf? text
  if digitsOf n = text then some n else none

def ofNat (n : Nat) : String := String.ofList (digitsOf n)

end LinearLight.Decimal
