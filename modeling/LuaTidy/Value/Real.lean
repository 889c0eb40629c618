/-!
Real numbers as documents write them: exact decimals, infinities and not-a-number. A decimal is
used only after rounding to the nearest number with a 53-bit significand, as binary floating point
of double precision holds it.
-/
namespace LuaTidy

/-- A real number as written. -/
inductive Real where
  /-- The number `mantissa * 10 ^ exponent`. -/
  | decimal (mantissa exponent : Int)
  | infinity (negative : Bool)
  | nan
  deriving DecidableEq, Repr

namespace Real

/-- The whole number nearest to `num / den`, of two the even one. -/
def roundDiv (num den : Nat) : Nat :=
  let q := num / den
  let r := num % den
  if 2 * r < den then q
  else if den < 2 * r then q + 1
  else q + q % 2

/-- A whole number times a power of two. -/
structure Binary where
  significand : Nat
  exponent : Int
  deriving DecidableEq, Repr

/-- The number `num / den` times two to the power `-k`, rounded to a whole number. -/
def scaled (num den : Nat) (k : Int) : Nat :=
  roundDiv (num * Nat.pow 2 (-k).toNat) (den * Nat.pow 2 k.toNat)

/--
The double nearest to `num / den`, where both are positive: the exponent is the least one, but not
below that of the subnormal numbers, at which the significand stays within 53 bits.
-/
def nearest (num den : Nat) : Binary :=
  let k := (num.log2 : Int) - den.log2 - 52
  let n := num * Nat.pow 2 (-k).toNat / (den * Nat.pow 2 k.toNat)
  let k := if Nat.pow 2 53 ≤ n then k + 1 else if n < Nat.pow 2 52 then k - 1 else k
  let k := max k (-1074)
  ⟨scaled num den k, k⟩

def Binary.whole? (b : Binary) : Option Nat :=
  if 0 ≤ b.exponent then some (b.significand * Nat.pow 2 b.exponent.toNat)
  else
    let d := Nat.pow 2 (-b.exponent).toNat
    if b.significand % d = 0 then some (b.significand / d) else none

/-- Whether a rounded number is too large for a double. -/
def Binary.overflows (b : Binary) : Bool :=
  971 < b.exponent || (b.exponent = 971 && Nat.pow 2 53 ≤ b.significand)

/-- What a real number is once rounded, as far as whole numbers are concerned. -/
inductive Rounded where
  | whole (n : Int)
  | fractional
  | notFinite
  deriving DecidableEq, Repr

/-- Round a real number. Decimals far outside the range of doubles are told by their digits. -/
def round : Real → Rounded
  | .infinity _ => .notFinite
  | .nan => .notFinite
  | .decimal m e =>
    let digits : Int := (Nat.toDigits 10 m.natAbs).length
    if m = 0 || digits + e < -400 then .whole 0
    else if 400 < digits + e then .notFinite
    else
      let b := nearest (m.natAbs * Nat.pow 10 e.toNat) (Nat.pow 10 (-e).toNat)
      if b.overflows then .notFinite
      else
        match b.whole? with
        | some n => .whole (if m < 0 then -(n : Int) else n)
        | none => .fractional

end Real
end LuaTidy
