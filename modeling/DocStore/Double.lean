/-!
# Double-precision numbers

A `Double` is its sixty-four bits. Everything said about it here is said in
exact integer arithmetic on those bits: the order of two numbers is the order
of their integer keys (`Double.key`), a number is rounded from an exact
quotient (`Double.ofRatio`), and its integral value is read off significand
and exponent (`Double.integral?`).
-/

namespace DocStore

/-! ## Powers

The powers of the bases in which numbers are written. `2 ^ n` would be read with
another instance where the algebraic library is imported, so they have names of
their own. -/

def twoTo (n : Nat) : Nat := Nat.pow 2 n

def tenTo (n : Nat) : Nat := Nat.pow 10 n

structure Double where
  bits : UInt64
  deriving DecidableEq, Repr, Inhabited

namespace Double

/-! ## The parts of the bit pattern -/

def isNegative (d : Double) : Bool := twoTo 63 ≤ d.bits.toNat

/-- All bits but the sign. Magnitudes order numbers of one sign. -/
def magnitude (d : Double) : Nat := d.bits.toNat % twoTo 63

def infiniteMagnitude : Nat := 0x7FF0000000000000

def isNaN (d : Double) : Bool := infiniteMagnitude < d.magnitude

def isFinite (d : Double) : Bool := d.magnitude < infiniteMagnitude

def exponentField (d : Double) : Nat := d.magnitude / twoTo 52

/-- A finite number is `significand * 2 ^ exponent`, sign apart. -/
def significand (d : Double) : Nat :=
  if d.exponentField = 0 then d.magnitude else twoTo 52 + d.magnitude % twoTo 52

def exponent (d : Double) : Int := (max d.exponentField 1 : Nat) - 1075

def ofSignMagnitude (negative : Bool) (magnitude : Nat) : Double :=
  ⟨UInt64.ofNat (if negative then twoTo 63 + magnitude else magnitude)⟩

def nan : Double := ⟨0x7FF8000000000000⟩

/-! ## Order -/

/-- The numeric order of doubles that are not NaN is the order of their keys;
both zeros have key `0`. -/
def key (d : Double) : Int :=
  if d.isNegative then -(d.magnitude : Int) else d.magnitude

/-- NaN compares with nothing, not even itself. -/
def compare? (a b : Double) : Option Ordering :=
  if a.isNaN || b.isNaN then none else some (compare a.key b.key)

/-- Numeric equality: the zeros are equal and NaN differs from itself. -/
def numEq (a b : Double) : Bool := a.compare? b == some .eq

def isZero (d : Double) : Bool := d.magnitude == 0

/-! ## Rounding -/

/-- The quotient `num / den` to the nearest integer, a tie to the even one. -/
def roundQuotient (num den : Nat) : Nat :=
  let floor := num / den
  let rest := 2 * (num % den)
  if rest < den then floor
  else if den < rest then floor + 1
  else floor + floor % 2

/-- The exponent of the last place that a double near `num / den` can hold. -/
def lastPlace (num den : Nat) : Int :=
  let estimate : Int := num.log2 - den.log2
  let aboveEstimate : Bool :=
    if 0 ≤ estimate then den * twoTo estimate.toNat ≤ num
    else den ≤ num * twoTo (-estimate).toNat
  let top := if aboveEstimate then estimate else estimate - 1
  max (top - 52) (-1074)

/-- Magnitude bits of the double nearest to `num / den`. A significand that
rounds up to the next power of two carries into the exponent by itself, and
everything past the largest finite number becomes infinity. -/
def roundedMagnitude (num den : Nat) : Nat :=
  if num = 0 then 0
  else
    let place := lastPlace num den
    let significand :=
      if 0 ≤ place then roundQuotient num (den * twoTo place.toNat)
      else roundQuotient (num * twoTo (-place).toNat) den
    min infiniteMagnitude ((place + 1074).toNat * twoTo 52 + significand)

/-- The double nearest to `num / den`, ties to even. -/
def ofRatio (negative : Bool) (num den : Nat) : Double :=
  ofSignMagnitude negative (roundedMagnitude num den)

def ofInt (n : Int) : Double := ofRatio (n < 0) n.natAbs 1

/-! ## Integral values -/

/-- The integer that a double is equal to, if it is a whole number. -/
def integral? (d : Double) : Option Int :=
  if !d.isFinite then none
  else
    let sign : Int := if d.isNegative then -1 else 1
    if 0 ≤ d.exponent then some (sign * (d.significand * twoTo d.exponent.toNat : Nat))
    else
      let unit := twoTo (-d.exponent).toNat
      if d.significand % unit = 0 then some (sign * (d.significand / unit : Nat)) else none

/-- The signed 64-bit integer nearest to a whole number. -/
def clampInt64 (n : Int) : Int :=
  max (-(twoTo 63 : Int)) (min n (twoTo 63 - 1 : Int))

end Double

end DocStore
