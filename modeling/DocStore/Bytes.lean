/-!
# Bytes and object identifiers

Two written forms of a byte string: pairs of lower-case hexadecimal digits,
high half first, and base 64 with padding. `hex` and `ofHex?` are inverse on
lower-case digits; base 64 is only ever written. An object identifier is
twelve bytes, and is written in hexadecimal.
-/

namespace DocStore

/-! ## Hexadecimal -/

def hexPair (b : UInt8) : List Char :=
  [Nat.digitChar (b.toNat / 16), Nat.digitChar (b.toNat % 16)]

def hex (bytes : List UInt8) : String :=
  String.ofList (bytes.flatMap hexPair)

def hexDigit? (c : Char) : Option Nat :=
  if '0' ≤ c ∧ c ≤ '9' then some (c.toNat - 48)
  else if 'a' ≤ c ∧ c ≤ 'f' then some (c.toNat - 87)
  else if 'A' ≤ c ∧ c ≤ 'F' then some (c.toNat - 55)
  else none

/-- Reads digits two at a time; an odd digit at the end is refused. -/
def ofHexDigits? : List Char → Option (List UInt8)
  | [] => some []
  | [_] => none
  | a :: b :: rest => do
      let high ← hexDigit? a
      let low ← hexDigit? b
      return UInt8.ofNat (16 * high + low) :: (← ofHexDigits? rest)

def ofHex? (s : String) : Option (List UInt8) := ofHexDigits? s.toList

/-! ## Base 64 -/

def base64Digit (n : Nat) : Char :=
  if n < 26 then Char.ofNat (65 + n)
  else if n < 52 then Char.ofNat (71 + n)
  else if n < 62 then Char.ofNat (n - 4)
  else if n = 62 then '+'
  else '/'

/-- Three bytes fill four digits; a short last group is padded with `=`. -/
def base64Digits : List UInt8 → List Char
  | [] => []
  | [a] =>
      let n := a.toNat * 16
      [base64Digit (n / 64), base64Digit (n % 64), '=', '=']
  | [a, b] =>
      let n := (a.toNat * 256 + b.toNat) * 4
      [base64Digit (n / 4096), base64Digit (n / 64 % 64), base64Digit (n % 64), '=']
  | a :: b :: c :: rest =>
      let n := (a.toNat * 256 + b.toNat) * 256 + c.toNat
      base64Digit (n / 262144) :: base64Digit (n / 4096 % 64)
        :: base64Digit (n / 64 % 64) :: base64Digit (n % 64) :: base64Digits rest

def base64 (bytes : List UInt8) : String :=
  String.ofList (base64Digits bytes)

/-! ## Object identifiers -/

structure ObjectId where
  bytes : List UInt8
  size_eq : bytes.length = 12
  deriving DecidableEq, Repr

namespace ObjectId

def ofBytes? (bytes : List UInt8) : Option ObjectId :=
  if h : bytes.length = 12 then some ⟨bytes, h⟩ else none

def hex (id : ObjectId) : String := DocStore.hex id.bytes

end ObjectId

end DocStore
