/-!
# Binary numbers with a limited mantissa

Non-negative numbers `mantissa * 2 ^ exponent` with 53 binary digits, and the nearest one to a
ratio of natural numbers: a half goes to the even neighbour.
-/

namespace GdScribe

/-- A number of the 64 bit binary format, without its sign. -/
inductive Binary where
  | finite (mantissa : Nat) (exponent : Int)
  | infinite
  deriving DecidableEq, Repr, Inhabited

namespace Binary

/-- The natural number nearest to a ratio; a half goes to the even neighbour. -/
def nearest (num den : Nat) : Nat :=
  let q := num / den
  let r := num % den
  if den < 2 * r ∨ (2 * r = den ∧ q % 2 = 1) then q + 1 else q

def scale (num den : Nat) (shift : Int) : Nat × Nat :=
  if 0 ≤ shift then (num * Nat.pow 2 shift.toNat, den) else (num, den * Nat.pow 2 (-shift).toNat)

/-- The largest `k` with `2 ^ k ≤ num / den`, for positive numbers. -/
def log (num den : Nat) : Int :=
  let guess : Int := (Nat.log2 num : Int) - Nat.log2 den
  let (n, d) := scale num den (-guess)
  if d ≤ n then guess else guess - 1

def leastExponent : Int := -1074

def ofRatio (num den : Nat) : Binary :=
  if num = 0 then .finite 0 leastExponent
  else
    let e := max (log num den - 52) leastExponent
    let (n, d) := scale num den (-e)
    let m := nearest n d
    let (m, e) := if m = Nat.pow 2 53 then (Nat.pow 2 52, e + 1) else (m, e)
    if 971 < e then .infinite else .finite m e

def ofDecimal (digits : Nat) (exponent : Int) : Binary :=
  if 0 ≤ exponent then ofRatio (digits * Nat.pow 10 exponent.toNat) 1
  else ofRatio digits (Nat.pow 10 (-exponent).toNat)

def ratio (mantissa : Nat) (exponent : Int) : Nat × Nat := scale mantissa 1 exponent

end Binary

end GdScribe
