import DocStore.Double

/-!
# Doubles as decimal text

A double is written with the fewest digits that read back as it
(`Decimal.shortest`), always in positional notation and without a fraction
when there is none. It is read from a sign, digits with an optional point and
an optional exponent, or one of the words for infinity and NaN, and rounded
once from the exact value (`Double.ofText?`).
-/

namespace DocStore

/-- `digits * 10 ^ exponent`. -/
structure Decimal where
  digits : Nat
  exponent : Int
  deriving DecidableEq, Repr

namespace Decimal

/-- How many decimal digits `n` has; none for zero. -/
def digitCount (n : Nat) : Nat :=
  if n = 0 then 0 else (Nat.toDigits 10 n).length

/-! ## The shortest digits that read back -/

/-- The real numbers that round to `significand * 2 ^ exponent`, in quarters
of the last place. Below a power of two the next double is half as far away.
The ends round to an even significand. -/
structure Interval where
  low : Nat
  high : Nat
  closed : Bool
  /-- Exponent of the quarter. -/
  exponent : Int

def interval (significand : Nat) (exponent : Int) : Interval where
  low := if significand = twoTo 52 ∧ -1074 < exponent then 4 * significand - 1
    else 4 * significand - 2
  high := 4 * significand + 2
  closed := significand % 2 = 0
  exponent := exponent - 2

/-- Compares `digits * 10 ^ place` with `quarters * 2 ^ exponent`. -/
def compareScaled (digits : Nat) (place : Int) (quarters : Nat) (exponent : Int) : Ordering :=
  compare (digits * tenTo place.toNat * twoTo (-exponent).toNat)
    (quarters * twoTo exponent.toNat * tenTo (-place).toNat)

def Interval.contains (i : Interval) (digits : Nat) (place : Int) : Bool :=
  let low := compareScaled digits place i.low i.exponent
  let high := compareScaled digits place i.high i.exponent
  if i.closed then low != .lt && high != .gt else low == .gt && high == .lt

/-- The power of ten just above the number `num / den`: it lies between
`10 ^ (k - 1)`, included, and `10 ^ k`. -/
def topPlace (num den : Nat) : Int :=
  if den ≤ num then digitCount (num / den) else 1 - digitCount ((den - 1) / num)

/-- The point of the grid `10 ^ place` nearest to `num / den` that lies in the
interval, if one does; a tie goes to the upper one. Only the two neighbours of
the number can lie there. -/
def nearestOnGrid? (i : Interval) (num den : Nat) (place : Int) : Option Decimal :=
  let num := num * tenTo (-place).toNat
  let den := den * tenTo place.toNat
  let below := num / den
  let belowFits := i.contains below place
  let aboveFits := i.contains (below + 1) place
  let aboveNearer : Bool := den ≤ 2 * (num % den)
  if belowFits && (!aboveFits || !aboveNearer) then some ⟨below, place⟩
  else if aboveFits then some ⟨below + 1, place⟩
  else none

/-- The fewest digits that read back as `significand * 2 ^ exponent`; of those
the nearest to it. Seventeen digits always suffice. -/
def shortest (significand : Nat) (exponent : Int) : Decimal :=
  let num := significand * twoTo exponent.toNat
  let den := twoTo (-exponent).toNat
  let top := topPlace num den
  let i := interval significand exponent
  ((List.range' 1 17).findSome? fun (count : Nat) => nearestOnGrid? i num den (top - count)).getD
    ⟨num / den, 0⟩

/-! ## Positional notation -/

def zeros (n : Nat) : List Char := List.replicate n '0'

def dropTrailingZeros (digits : List Char) : List Char :=
  (digits.reverse.dropWhile (· == '0')).reverse

/-- The significant digits of a decimal, and how many of them stand before
the point. -/
def significant (d : Decimal) : List Char × Int :=
  let digits := Nat.toDigits 10 d.digits
  (dropTrailingZeros digits, digits.length + d.exponent)

def positional (d : Decimal) : List Char :=
  let (digits, point) := d.significant
  if point ≤ 0 then '0' :: '.' :: zeros (-point).toNat ++ digits
  else if digits.length ≤ point.toNat then digits ++ zeros (point.toNat - digits.length)
  else digits.take point.toNat ++ '.' :: digits.drop point.toNat

end Decimal

/-- The text of a double. -/
def Double.text (d : Double) : String :=
  let sign := if d.isNegative then "-" else ""
  if d.isNaN then "NaN"
  else if !d.isFinite then sign ++ "inf"
  else if d.isZero then sign ++ "0"
  else sign ++ String.ofList (Decimal.shortest d.significand d.exponent).positional

/-! ## Reading -/

def isDecimalDigit (c : Char) : Bool := '0' ≤ c ∧ c ≤ '9'

def digitValue (c : Char) : Nat := c.toNat - 48

def ofDigits (digits : List Char) : Nat :=
  digits.foldl (fun n c => 10 * n + digitValue c) 0

/-- The exact value of a decimal, rounded once. Values far outside the range
of doubles are decided by their size, not by computing the power. -/
def Decimal.toDouble (negative : Bool) (d : Decimal) : Double :=
  let size := Decimal.digitCount d.digits + d.exponent
  if d.digits = 0 ∨ size < -400 then .ofSignMagnitude negative 0
  else if 400 < size then .ofSignMagnitude negative Double.infiniteMagnitude
  else .ofRatio negative (d.digits * tenTo d.exponent.toNat) (tenTo (-d.exponent).toNat)

/-- An exponent part: nothing, or `e` with an optional sign and digits. -/
def readExponent? : List Char → Option Int
  | [] => some 0
  | e :: rest =>
      if e != 'e' && e != 'E' then none
      else
        let (negative, digits) := match rest with
          | '-' :: ds => (true, ds)
          | '+' :: ds => (false, ds)
          | ds => (false, ds)
        if digits.isEmpty || !digits.all isDecimalDigit then none
        else some (if negative then -(ofDigits digits : Int) else ofDigits digits)

/-- Digits with an optional point among them, at least one digit in all, and
an optional exponent. -/
def readDecimal? (s : List Char) : Option Decimal :=
  let whole := s.takeWhile isDecimalDigit
  let rest := s.dropWhile isDecimalDigit
  let (fraction, tail) := match rest with
    | '.' :: more => (more.takeWhile isDecimalDigit, more.dropWhile isDecimalDigit)
    | _ => ([], rest)
  if whole.isEmpty && fraction.isEmpty then none
  else (readExponent? tail).map fun e => ⟨ofDigits (whole ++ fraction), e - fraction.length⟩

/-- Reads a number, or `inf`, `infinity` or `nan` in letters of any case. -/
def Double.ofText? (s : List Char) : Option Double :=
  let (negative, body) := match s with
    | '-' :: rest => (true, rest)
    | '+' :: rest => (false, rest)
    | _ => (false, s)
  let word := String.ofList (body.map Char.toLower)
  if word = "inf" ∨ word = "infinity" then
    some (.ofSignMagnitude negative Double.infiniteMagnitude)
  else if word = "nan" then some .nan
  else (readDecimal? body).map (·.toDouble negative)

end DocStore
