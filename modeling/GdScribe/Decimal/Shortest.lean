import GdScribe.Decimal.Binary
import GdScribe.Text.CharClass

/-!
# Decimal text of binary numbers

The shortest decimal digits that read back as a number, the nearest of them to the number, and
the text made of them: positional for exponents from -4 to 15, else with an exponent of at least
two digits.

* `Decimal.shortest`: the digits.
* `Decimal.read`: the number that a text of digits and a point stands for.
* `Decimal.render`: the text of a number.
-/

namespace GdScribe.Decimal

/-- `digits * 10 ^ exponent`. -/
structure Digits where
  digits : Nat
  exponent : Int
  deriving DecidableEq, Repr, Inhabited

/-- The least number of decimal places, up to `fuel`, that brings `num / den` to at least one. -/
def placesBelowOne (num den : Nat) : Nat → Nat → Nat
  | 0, t => t
  | fuel + 1, t => if den ≤ num * Nat.pow 10 t then t else placesBelowOne num den fuel (t + 1)

def leading (num den : Nat) : Int :=
  if den ≤ num then ((Nat.toDigits 10 (num / den)).length : Int) - 1
  else -(placesBelowOne num den 400 0 : Int)

def scaleTen (num den : Nat) (shift : Int) : Nat × Nat :=
  if 0 ≤ shift then (num * Nat.pow 10 shift.toNat, den) else (num, den * Nat.pow 10 (-shift).toNat)

/-- The number with `n` digits next to `num / den` that reads back as `value`, if there is one:
of the two neighbours the nearer, and of two equally near ones the even. -/
def withDigits (value : Binary) (num den : Nat) (n : Nat) : Option Digits :=
  let shift : Int := (n : Int) - 1 - leading num den
  let (a, b) := scaleTen num den shift
  let low := a / b
  let rest := a % b
  let lowReads := Binary.ofDecimal low (-shift) == value
  let highReads := Binary.ofDecimal (low + 1) (-shift) == value
  if lowReads && (!highReads || 2 * rest < b || (2 * rest == b && low % 2 == 0)) then
    some ⟨low, -shift⟩
  else if highReads then some ⟨low + 1, -shift⟩
  else none

def shortest (mantissa : Nat) (exponent : Int) : Digits :=
  let (num, den) := Binary.ratio mantissa exponent
  let value := Binary.finite mantissa exponent
  ((List.range 17).findSome? fun i => withDigits value num den (i + 1)).getD ⟨mantissa, exponent⟩

def significant (n : Nat) : List Char :=
  ((Nat.toDigits 10 n).reverse.dropWhile (· == '0')).reverse

/-- Writes significant digits whose first one has the exponent `lead`. -/
def layout (ds : List Char) (lead : Int) : String :=
  if -5 < lead ∧ lead < 16 then
    if lead < 0 then
      "0." ++ String.ofList (List.replicate (-lead - 1).toNat '0' ++ ds)
    else
      let whole := lead.toNat + 1
      let front := ds.take whole ++ List.replicate (whole - ds.length) '0'
      let back := ds.drop whole
      String.ofList front ++ "." ++ if back.isEmpty then "0" else String.ofList back
  else
    let mark := if lead < 0 then "e-" else "e+"
    let power := Nat.toDigits 10 lead.natAbs
    let power := List.replicate (2 - power.length) '0' ++ power
    let front := match ds with
      | [] => ""
      | [d] => String.singleton d
      | d :: rest => String.singleton d ++ "." ++ String.ofList rest
    front ++ mark ++ String.ofList power

def render : Binary → String
  | .infinite => "inf"
  | .finite 0 _ => "0.0"
  | .finite m e =>
    let d := shortest m e
    let all := Nat.toDigits 10 d.digits
    layout (significant d.digits) (d.exponent + all.length - 1)

/-- The number that decimal digits with at most one point stand for. -/
def read (s : String) : Binary :=
  let digits := s.toList.filter (· != '.')
  let places := ((s.toList.dropWhile (· != '.')).drop 1).length
  Binary.ofDecimal (digits.foldl (fun n c => 10 * n + CharClass.decimalValue c) 0) (-(places : Int))

end GdScribe.Decimal
