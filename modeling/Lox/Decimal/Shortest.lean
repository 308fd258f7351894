/-!
Shortest decimal digits of binary64 numbers.

A finite double is `mantissa · 2 ^ exponent`. The reals that round to it form an interval around
it, whose ends belong to it exactly when the mantissa is even. `Binary.shortest` looks at the
decimal grids `10 ^ g` from coarse to fine and stops at the first one on which one of the value's
two neighbours lies in that interval: of two such neighbours it keeps the nearer, and an exact tie
goes as a `Tie` says. The result therefore reads back as the same double, and no decimal with
fewer significant digits does.
-/
namespace Lox

/-- How a tie between two equally near candidates of the same length is broken. -/
inductive Tie where
  /-- The larger candidate wins. -/
  | up
  /-- The candidate with an even last digit wins. -/
  | even
  deriving DecidableEq, Repr

/-- The magnitude of a finite double, `mantissa · 2 ^ exponent`. -/
structure Binary where
  mantissa : Nat
  exponent : Int
  /-- The gap to the next double below is half the gap above (lowest mantissa of a binade). -/
  narrowBelow : Bool
  deriving DecidableEq, Repr

/-- A double seen through its bits: a signed finite magnitude, a signed infinity, or NaN. -/
inductive Double where
  | finite (negative : Bool) (magnitude : Binary)
  | infinity (negative : Bool)
  | nan
  deriving DecidableEq, Repr

/-- A non-negative decimal `digits · 10 ^ exponent`. -/
structure Decimal where
  digits : Nat
  exponent : Int
  deriving DecidableEq, Repr

namespace Double

/-- The 52 fraction bits of a double. -/
def fractionField (bits : UInt64) : Nat := bits.toNat % Nat.pow 2 52

/-- The 11 biased exponent bits of a double. -/
def exponentField (bits : UInt64) : Nat := bits.toNat / Nat.pow 2 52 % Nat.pow 2 11

/-- Decodes the bits of a double: subnormals have exponent `-1074`, normal numbers carry the
hidden bit and exponent `field - 1075`, and the all-ones exponent holds infinities and NaNs. -/
def ofBits (bits : UInt64) : Double :=
  let f := fractionField bits
  let e := exponentField bits
  let negative := decide (Nat.pow 2 63 ≤ bits.toNat)
  if e = 2047 then
    if f = 0 then .infinity negative else .nan
  else if e = 0 then .finite negative ⟨f, -1074, false⟩
  else .finite negative ⟨Nat.pow 2 52 + f, (e : Int) - 1075, decide (f = 0 ∧ 1 < e)⟩

/-- The double a `Float` holds. -/
def ofFloat (x : Float) : Double := ofBits x.toBits

end Double

namespace Binary

/-- The value has no fractional part. -/
def isIntegral (b : Binary) : Bool :=
  0 ≤ b.exponent || b.mantissa % Nat.pow 2 (-b.exponent).toNat == 0

/-- The integer part of the value, exactly. -/
def integerPart (b : Binary) : Nat :=
  b.mantissa * Nat.pow 2 b.exponent.toNat / Nat.pow 2 (-b.exponent).toNat

/-- The nearer of the value's two neighbours on the grid `10 ^ g` that lies in its rounding
interval, if either does. Quantities are compared as integers: the value and the ends of its
interval are multiples of `2 ^ (exponent - 2)`, the candidates multiples of `10 ^ g`, and both
sides are multiplied by one common power of two and of ten. -/
def onGrid (b : Binary) (tie : Tie) (g : Int) : Option Nat :=
  let p := b.exponent - 2
  let l := Nat.pow 2 p.toNat * Nat.pow 10 (-g).toNat
  let r := Nat.pow 2 (-p).toNat * Nat.pow 10 g.toNat
  let v := 4 * b.mantissa * l
  let lo := (4 * b.mantissa - if b.narrowBelow then 1 else 2) * l
  let hi := (4 * b.mantissa + 2) * l
  let inside (c : Nat) : Bool :=
    if b.mantissa % 2 = 0 then lo ≤ c * r && c * r ≤ hi else lo < c * r && c * r < hi
  let down := v / r
  let up := down + 1
  match inside down, inside up with
  | true, true =>
    if v - down * r < up * r - v then some down
    else if up * r - v < v - down * r then some up
    else match tie with
      | .up => some up
      | .even => some (if down % 2 = 0 then down else up)
  | true, false => some down
  | false, true => some up
  | false, false => none

/-- Tries the grids `10 ^ g`, `10 ^ (g - 1)`, … in turn, at most `fuel` of them. -/
def searchFrom (b : Binary) (tie : Tie) : Nat → Int → Decimal
  | 0, g => ⟨0, g⟩
  | fuel + 1, g =>
    match b.onGrid tie g with
    | some c => ⟨c, g⟩
    | none => searchFrom b tie fuel (g - 1)

/-- A grid exponent at or above the leading digit's: the value is below `2 ^ bitLength`, and
`78913 / 2 ^ 18` is within `10 ^ -7` of `log 2 / log 10`, one more grid covers the error. -/
def startGrid (b : Binary) : Int :=
  Int.fdiv (((Nat.log2 b.mantissa + 1 : Nat) + b.exponent) * 78913) 262144 + 1

end Binary

namespace Decimal

/-- Removes trailing zeros from the digits, raising the exponent to keep the value. -/
def normalize (d : Decimal) : Decimal :=
  if h : d.digits ≠ 0 ∧ d.digits % 10 = 0 then
    normalize ⟨d.digits / 10, d.exponent + 1⟩
  else d
termination_by d.digits
decreasing_by omega

end Decimal

/-- The fewest significant digits that read back as the double `b`; of two candidates of that
length the nearer, and `tie` decides between equally near ones. Zero is `0 · 10 ^ 0`. -/
def Binary.shortest (b : Binary) (tie : Tie) : Decimal :=
  if b.mantissa = 0 then ⟨0, 0⟩
  else (b.searchFrom tie 40 b.startGrid).normalize

end Lox
