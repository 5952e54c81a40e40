import DocStore.Double

/-!
# Decimal floating-point numbers

A `Decimal128` is sixteen bytes, least significant first: a sign, a biased
exponent and a coefficient of up to thirty-four digits, or infinity or NaN.
Its text is positional while the exponent is not positive and at most six
zeros follow the point, and scientific otherwise. The coefficient keeps its
trailing zeros.
-/

namespace DocStore

structure Decimal128 where
  bytes : List UInt8
  size_eq : bytes.length = 16
  deriving DecidableEq, Repr

namespace Decimal128

def ofBytes? (bytes : List UInt8) : Option Decimal128 :=
  if h : bytes.length = 16 then some ⟨bytes, h⟩ else none

/-- The sixteen bytes as one number. -/
def word (d : Decimal128) : Nat :=
  d.bytes.foldr (fun b n => b.toNat + 256 * n) 0

inductive Form where
  | finite (coefficient : Nat) (exponent : Int)
  | infinite
  | nan
  deriving DecidableEq, Repr

def isNegative (d : Decimal128) : Bool := d.word / twoTo 127 = 1

def largestCoefficient : Nat := tenTo 34 - 1

/-- Two leading ones after the sign move the exponent two places to the right;
the coefficient such a word spells is too large, and coefficients that are too
large stand for zero. -/
def form (d : Decimal128) : Form :=
  let body := d.word % twoTo 127
  if body / twoTo 122 = 31 then .nan
  else if body / twoTo 122 = 30 then .infinite
  else if body / twoTo 125 = 3 then .finite 0 ((body / twoTo 111 % twoTo 14 : Nat) - 6176)
  else
    let coefficient := body % twoTo 113
    .finite (if coefficient ≤ largestCoefficient then coefficient else 0)
      ((body / twoTo 113 : Nat) - 6176)

def scientific (digits : List Char) (exponent adjusted : Int) : String :=
  let fraction := digits.drop 1
  String.ofList (digits.take 1 ++ (if fraction.isEmpty then [] else '.' :: fraction))
    ++ "E" ++ (if 0 < exponent then "+" else "") ++ toString adjusted

/-- Puts the point before the last `places` digits. -/
def pointed (digits : List Char) (places : Nat) : String :=
  if places = 0 then String.ofList digits
  else if digits.length ≤ places then
    "0." ++ String.ofList (List.replicate (places - digits.length) '0' ++ digits)
  else
    let whole := digits.length - places
    String.ofList (digits.take whole ++ '.' :: digits.drop whole)

def finiteText (coefficient : Nat) (exponent : Int) : String :=
  let digits := Nat.toDigits 10 coefficient
  let adjusted := exponent + digits.length - 1
  if exponent ≤ 0 ∧ -6 ≤ adjusted then pointed digits exponent.natAbs
  else scientific digits exponent adjusted

/-- A NaN is written without its sign. -/
def text (d : Decimal128) : String :=
  let sign := if d.isNegative then "-" else ""
  match d.form with
  | .nan => "NaN"
  | .infinite => sign ++ "Infinity"
  | .finite coefficient exponent => sign ++ finiteText coefficient exponent

end Decimal128

end DocStore
