/-
  EventFlow.Binary.Basic — numbers with a binary point, and rounding to a format.

  A value is a sign, a mantissa and an exponent of two, in lowest terms (the mantissa is
  odd, or zero with exponent zero), or an infinity. So a value has one form whatever the
  format that holds it, and widening a number changes nothing. Rounding takes an exact
  quotient to the nearest value of a format, ties to the even neighbour; a quotient too
  large for the format becomes an infinity.
-/

namespace EventFlow

inductive Binary where
  | finite (negative : Bool) (mantissa : Nat) (exponent : Int)
  | infinite (negative : Bool)
  deriving DecidableEq, Inhabited

namespace Binary

def isFinite : Binary → Bool
  | .finite .. => true
  | .infinite _ => false

/-- Drops factors of two from the mantissa. -/
def reduce (mantissa : Nat) (exponent : Int) : Nat × Int :=
  if h : mantissa = 0 then (0, 0)
  else if mantissa % 2 = 1 then (mantissa, exponent)
  else reduce (mantissa / 2) (exponent + 1)
termination_by mantissa
decreasing_by omega

def ofParts (negative : Bool) (mantissa : Nat) (exponent : Int) : Binary :=
  let (m, e) := reduce mantissa exponent
  .finite negative m e

end Binary

/-- How many bits a mantissa has, and the exponents that its last bit may have. -/
structure BinaryFormat where
  precision : Nat
  least : Int
  greatest : Int

namespace BinaryFormat

/-- The format of 32 bits. -/
def single : BinaryFormat := ⟨24, -149, 104⟩

/-- The format of 64 bits. -/
def double : BinaryFormat := ⟨53, -1074, 971⟩

/-- Multiplies by a power of two, as a quotient. -/
def scale (num den : Nat) (power : Int) : Nat × Nat :=
  if 0 ≤ power then (num * Nat.pow 2 power.toNat, den) else (num, den * Nat.pow 2 (-power).toNat)

/-- The greatest `t` with `2 ^ t ≤ num / den`, for positive `num` and `den`. -/
def floorLog2 (num den : Nat) : Int :=
  let t : Int := (num.log2 : Int) - den.log2
  let (n, d) := scale num den (-t)
  if n < d then t - 1 else t

/-- `num / den` to the nearest integer, a tie to the even one. -/
def roundQuotient (num den : Nat) : Nat :=
  let q := num / den
  let r := num % den
  if 2 * r > den || (2 * r == den && q % 2 == 1) then q + 1 else q

/-- The value of the format that is nearest to `num / den`. -/
def round (f : BinaryFormat) (negative : Bool) (num den : Nat) : Binary :=
  if num = 0 then .finite negative 0 0
  else
    let e := max (floorLog2 num den - (f.precision - 1 : Nat)) f.least
    let (n, d) := scale num den (-e)
    let q := roundQuotient n d
    if f.greatest < e || (e = f.greatest && Nat.pow 2 f.precision ≤ q) then .infinite negative
    else Binary.ofParts negative q e

/-- Reads `digits · 10 ^ exponent`. No format here holds a number of 400 decimal places,
so far exponents are decided without computing the power. -/
def ofDecimal (f : BinaryFormat) (negative : Bool) (digits : Nat) (exponent : Int) : Binary :=
  if digits = 0 then .finite negative 0 0
  else if 400 < exponent then .infinite negative
  else if (digits.log2 : Int) + 1 + exponent < -400 then .finite negative 0 0
  else if 0 ≤ exponent then f.round negative (digits * Nat.pow 10 exponent.toNat) 1
  else f.round negative digits (Nat.pow 10 (-exponent).toNat)

/-- A value moved into the format. -/
def ofBinary (f : BinaryFormat) : Binary → Binary
  | .finite negative m e =>
    let (n, d) := scale m 1 e
    f.round negative n d
  | .infinite negative => .infinite negative

end BinaryFormat
end EventFlow
