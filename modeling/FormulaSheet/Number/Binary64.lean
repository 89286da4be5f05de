/-!
# The numbers of a sheet

A number of a sheet is a `Float`, a binary64 number of IEEE 754. Arithmetic is that of `Float`;
reading and printing are exact, so they go through the integers that the bits of a `Float` stand
for. Equality of `Float`s is equality of bits, with one bit pattern for all that is not a number.

## Main definitions

* `Binary64`: what a `Float` stands for, with `Binary64.ofFloat` to look at one.
* `Binary64.numerator`, `Binary64.denominator`: the magnitude of a finite number as a fraction.
* `power`: the power of a natural number with an integer exponent, as far as it is one.
* `divRoundEven`: the quotient of two naturals rounded to the nearest natural, ties to even.
* `Binary64.nearest`: the `Float` nearest to a fraction, ties to the even significand.
-/

namespace FormulaSheet

/-- What a binary64 number stands for: not a number, an infinity, or `± significand * 2 ^ exponent`
with the significand below `2 ^ 53` and the exponent from `-1074` to `971`. -/
inductive Binary64 where
  | nan
  | infinite (negative : Bool)
  | finite (negative : Bool) (significand : Nat) (exponent : Int)
deriving DecidableEq, Repr

/-- The power `base ^ k`, or `1` where `k` is negative. So `num / den` is multiplied by `base ^ k`,
for any integer `k`, when `num` is multiplied by `power base k` and `den` by `power base (-k)`. -/
def power (base : Nat) (k : Int) : Nat :=
  Nat.pow base k.toNat

/-- The quotient `num / den` rounded to the nearest natural number; a tie goes to the even one. -/
def divRoundEven (num den : Nat) : Nat :=
  let q := num / den
  let r := num % den
  if 2 * r < den ∨ (2 * r = den ∧ q % 2 = 0) then q else q + 1

namespace Binary64

/-! ### Looking at a number -/

/-- The value of the sign bit, `2 ^ 63`. -/
def signBit : Nat := 0x8000000000000000

/-- The value of the lowest bit of the exponent field, `2 ^ 52`. It is also the leading bit of a
normal significand, which is not stored. -/
def exponentUnit : Nat := 0x10000000000000

/-- The number that a binary64 bit pattern stands for: a sign bit, eleven bits of exponent and
fifty-two of fraction. The lowest exponent field holds the subnormal numbers and the highest one
the infinities and all that is not a number. -/
def ofBits (bits : UInt64) : Binary64 :=
  let negative : Bool := signBit ≤ bits.toNat
  let field : Nat := bits.toNat / exponentUnit % 2048
  let fraction : Nat := bits.toNat % exponentUnit
  if field = 2047 then
    if fraction = 0 then infinite negative else nan
  else if field = 0 then finite negative fraction (-1074)
  else finite negative (exponentUnit + fraction) ((field : Int) - 1075)

/-- What `x` stands for. -/
def ofFloat (x : Float) : Binary64 :=
  ofBits x.toBits

/-- The numerator of `significand * 2 ^ exponent`. -/
def numerator (significand : Nat) (exponent : Int) : Nat :=
  significand * power 2 exponent

/-- The denominator of `significand * 2 ^ exponent`, a power of two. -/
def denominator (exponent : Int) : Nat :=
  power 2 (-exponent)

/-- The natural number that `x` is equal to, if there is one; both zeros count as `0`. -/
def natural? (x : Float) : Option Nat :=
  match ofFloat x with
  | finite negative m e =>
    let num := numerator m e
    let den := denominator e
    if num % den = 0 ∧ (negative → m = 0) then some (num / den) else none
  | _ => none

/-! ### The nearest number to a fraction -/

/-- The integer `k` with `2 ^ k ≤ num / den < 2 ^ (k + 1)`, for positive `num` and `den`. -/
def floorLog2 (num den : Nat) : Int :=
  let k : Int := num.log2 - den.log2
  if den * power 2 k ≤ num * power 2 (-k) then k else k - 1

/-- The bits of infinity, which are also the number of finite magnitudes. -/
def infinityBits : Nat := 2047 * exponentUnit

/-- The bits of the magnitude nearest to `num / den`, a tie going to the even significand. The
exponent is the one that leaves fifty-three bits to the significand, and `-1074` at least. A
significand that rounds up to `2 ^ 53` carries into the exponent, and what lies beyond the largest
finite magnitude becomes infinity. -/
def nearestBits (num den : Nat) : Nat :=
  if num = 0 then 0
  else
    let e : Int := max (floorLog2 num den - 52) (-1074)
    let m := divRoundEven (num * power 2 (-e)) (den * power 2 e)
    min ((e + 1074).toNat * exponentUnit + m) infinityBits

/-- The number with the given sign and the given bits of magnitude. -/
def signed (negative : Bool) (magnitude : Nat) : Float :=
  Float.ofBits (UInt64.ofNat (if negative then signBit + magnitude else magnitude))

/-- The number nearest to `± num / den`. -/
def nearest (negative : Bool) (num den : Nat) : Float :=
  signed negative (nearestBits num den)

/-- Positive or negative infinity. -/
def infinity (negative : Bool) : Float :=
  signed negative infinityBits

/-- The one `Float` that is not a number. -/
def notANumber : Float :=
  Float.ofBits 0x7FF8000000000000

end Binary64

end FormulaSheet
