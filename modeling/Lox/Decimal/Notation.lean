import Lox.Decimal.Shortest
/-!
Laying out decimal digits. `Decimal.positional` writes all digits with a point where it falls,
padding with zeros on either side; `Decimal.scientific` writes one digit before the point and an
exponent. A `Notation` gathers what differs between formats: the tie rule, which leading-digit
exponents are written positionally, the mark on integral values and the sign of a positive
exponent.
-/
namespace Lox

namespace Decimal

/-- The digits as text; zero is `0`. -/
def digitText (d : Decimal) : List Char := (Nat.repr d.digits).toList

/-- The number of digits before the decimal point, which may be zero or negative. -/
def pointAt (d : Decimal) : Int := d.digitText.length + d.exponent

/-- The exponent of the leading digit: `d` lies in `[10 ^ e, 10 ^ (e + 1))` when nonzero. -/
def leadingExponent (d : Decimal) : Int := d.pointAt - 1

/-- `n` zeros. -/
def zeros (n : Nat) : List Char := List.replicate n '0'

/-- All digits with the point where it falls: `12300`, `123.45`, `0.00012`. An integral value gets
no point. -/
def positional (d : Decimal) : String :=
  let s := d.digitText
  if 0 ≤ d.exponent then String.ofList (s ++ zeros d.exponent.toNat)
  else if 0 < d.pointAt then
    String.ofList (s.take d.pointAt.toNat ++ '.' :: s.drop d.pointAt.toNat)
  else String.ofList ('0' :: '.' :: zeros (-d.pointAt).toNat ++ s)

/-- One digit before the point, the rest after it (no point for a single digit), then `e`, the
sign and the leading digit's exponent: `1e-7`, `1.25e+17` with `plus = "+"`. -/
def scientific (d : Decimal) (plus : String) : String :=
  let s := d.digitText
  let e := d.leadingExponent
  let mantissa := match s with
    | [] => "0"
    | c :: [] => String.singleton c
    | c :: rest => String.ofList (c :: '.' :: rest)
  let sign := if e < 0 then "-" else plus
  mantissa ++ "e" ++ sign ++ Nat.repr e.natAbs

end Decimal

/-- How a format writes a finite double. -/
structure Notation where
  /-- Between two equally near shortest candidates. -/
  tie : Tie
  /-- Leading-digit exponents `e` with `lo ≤ e < hi` are written positionally, others in
  scientific form; `none` writes every value positionally. -/
  positional : Option (Int × Int)
  /-- Appended to an integral value written positionally, such as `.0`. -/
  integralMark : String
  /-- Written before a non-negative exponent in scientific form. -/
  plusSign : String

namespace Notation

/-- Writes a decimal as the notation says. -/
def writeDecimal (fmt : Notation) (d : Decimal) : String :=
  let e := d.leadingExponent
  let inRange := match fmt.positional with
    | none => true
    | some (lo, hi) => decide (lo ≤ e ∧ e < hi)
  if inRange then
    d.positional ++ (if 0 ≤ d.exponent then fmt.integralMark else "")
  else d.scientific fmt.plusSign

/-- Writes a finite magnitude with its shortest digits. -/
def writeMagnitude (fmt : Notation) (b : Binary) : String :=
  fmt.writeDecimal (b.shortest fmt.tie)

/-- Writes a finite double: a minus sign when the sign bit is set (so `-0` keeps it), then the
magnitude. -/
def writeFinite (fmt : Notation) (negative : Bool) (b : Binary) : String :=
  (if negative then "-" else "") ++ fmt.writeMagnitude b

end Notation

end Lox
