/-
  EventFlow.Binary.Shortest — the shortest decimal that reads back as a given value, and
  the ways to write it.

  A value of a format stands for every real number that rounds to it. From the coarsest
  decimal grid down, the value's two neighbours on the grid are tried; the first grid
  with a neighbour in that interval gives the digits, the nearer neighbour if both are.
  If any point of a grid lies in the interval, so does one of the two neighbours, so no
  shorter decimal reads back.
-/

import EventFlow.Binary.Basic

namespace EventFlow

/-- `digits · 10 ^ exponent`. -/
structure Decimal where
  digits : Nat
  exponent : Int
  deriving DecidableEq

namespace BinaryFormat

/-- The reals that round to a value, in units of a quarter of its last place. -/
structure Interval where
  low : Nat
  mid : Nat
  high : Nat
  closed : Bool
  /-- The unit is two to this power. -/
  unit : Int

/-- Below a power of two the neighbours are twice as close, so there the interval is
shorter on its lower side. -/
def interval (f : BinaryFormat) (mantissa : Nat) (exponent : Int) : Interval :=
  let shift := min (f.precision - (mantissa.log2 + 1)) (exponent - f.least).toNat
  let m := mantissa * Nat.pow 2 shift
  let e := exponent - shift
  let narrow := m == Nat.pow 2 (f.precision - 1) && f.least < e
  ⟨4 * m - (if narrow then 1 else 2), 4 * m, 4 * m + 2, m % 2 == 0, e - 2⟩

/-- The neighbour of the middle on the grid `10 ^ place`, if one is in the interval. -/
def Interval.onGrid (i : Interval) (place : Int) : Option Nat :=
  let a := Nat.pow 10 place.toNat * Nat.pow 2 (-i.unit).toNat
  let b := Nat.pow 10 (-place).toNat * Nat.pow 2 i.unit.toNat
  let inside (d : Nat) : Bool :=
    if i.closed then i.low * b ≤ d * a && d * a ≤ i.high * b
    else i.low * b < d * a && d * a < i.high * b
  let below := i.mid * b / a
  let above := below + 1
  let down := i.mid * b - below * a
  let up := above * a - i.mid * b
  if inside below && inside above then
    some (if down < up || (down == up && below % 2 == 0) then below else above)
  else if inside below then some below
  else if inside above then some above
  else none

/-- Twenty-four grids are enough: seventeen digits tell any two values apart. -/
def shortest (f : BinaryFormat) (mantissa : Nat) (exponent : Int) : Decimal :=
  let i := f.interval mantissa exponent
  let top := (((mantissa.log2 : Int) + exponent + 1) * 30103).fdiv 100000 + 1
  let hit := (List.range 24).findSome? fun (n : Nat) =>
    let place := top - n
    (i.onGrid place).map (Decimal.mk · place)
  hit.getD ⟨mantissa, exponent⟩

end BinaryFormat

/-- How the digits of a number are set out. -/
structure NumberLayout where
  /-- Powers of ten of the first digit that are written without an exponent. -/
  positional : Int → Bool
  /-- Whether a whole number ends in `.0`. -/
  point : Bool

namespace NumberLayout

def zeros (n : Nat) : List Char := List.replicate n '0'

def digitsOf (n : Nat) : List Char := Nat.toDigits 10 n

def plain (l : NumberLayout) (ds : List Char) (exponent : Int) : List Char :=
  let whole := (ds.length : Int) + exponent
  if 0 ≤ exponent then ds ++ zeros exponent.toNat ++ (if l.point then ['.', '0'] else [])
  else if 0 < whole then ds.take whole.toNat ++ '.' :: ds.drop whole.toNat
  else '0' :: '.' :: zeros (-whole).toNat ++ ds

def scientific (ds : List Char) (power : Int) : List Char :=
  let body := match ds with
    | d :: [] => [d]
    | d :: rest => d :: '.' :: rest
    | [] => ['0']
  body ++ 'e' :: (if power < 0 then '-' else '+') :: digitsOf power.natAbs

/-- The text of a value of format `f`. -/
def write (l : NumberLayout) (f : BinaryFormat) : Binary → List Char
  | .infinite negative => (if negative then ['-'] else []) ++ ['i', 'n', 'f']
  | .finite negative mantissa exponent =>
    let sign := if negative then ['-'] else []
    if mantissa = 0 then sign ++ '0' :: (if l.point then ['.', '0'] else [])
    else
      let d := f.shortest mantissa exponent
      let ds := digitsOf d.digits
      let power := (ds.length : Int) + d.exponent - 1
      sign ++ (if l.positional power then l.plain ds d.exponent else scientific ds power)

end NumberLayout
end EventFlow
