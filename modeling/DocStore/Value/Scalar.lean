import DocStore.Unicode.Class
import DocStore.Value.Text

/-!
# Comparing scalar values

Values are compared through a coarser view: all widths of integer and the
packed form of a timestamp are one integer kind, strings and symbols are one
text kind, and a binary value is its bytes. Within a kind the order is the
natural one. A number also compares with a text that spells a number, and an
integer with a double after rounding the integer to a double. Everything else
is incomparable (`none`), and so is NaN.
-/

namespace DocStore

inductive Scalar where
  | null
  | boolean (b : Bool)
  | integer (n : Int64)
  | number (d : Double)
  | dateTime (millis : Int64)
  | text (s : String)
  | bytes (bytes : List UInt8)
  | other
  deriving DecidableEq, Repr

/-- Time in the upper half and increment in the lower half of a signed word,
so that a time with its top bit set packs into a negative number. -/
def packTimestamp (time increment : UInt32) : Int64 :=
  (time.toUInt64 <<< 32 ||| increment.toUInt64).toInt64

def Value.scalar : Value → Scalar
  | .null => .null
  | .undefined => .null
  | .boolean b => .boolean b
  | .int32 n => .integer n.toInt64
  | .int64 n => .integer n
  | .double d => .number d
  | .dateTime millis => .dateTime millis
  | .string s => .text s
  | .symbol s => .text s
  | .binary _ bytes => .bytes bytes
  | .timestamp time increment => .integer (packTimestamp time increment)
  | _ => .other

namespace Scalar

/-- The value of a number, as a double. -/
def number? : Scalar → Option Double
  | integer n => some (.ofInt n.toInt)
  | number d => some d
  | _ => none

/-- The number that a text spells, white space around it apart. -/
def spelled? : Scalar → Option Double
  | text s => Double.ofText? (Unicode.trim s.toList)
  | _ => none

/-- Numbers with each other, or a number with a text that spells one. -/
def compareNumbers? (a b : Scalar) : Option Ordering :=
  match a.number?, b.number? with
  | some x, some y => x.compare? y
  | some x, none => b.spelled?.bind fun y => x.compare? y
  | none, some y => a.spelled?.bind fun x => x.compare? y
  | none, none => none

def compare? : Scalar → Scalar → Option Ordering
  | null, null => some .eq
  | boolean a, boolean b => some (compare a b)
  | integer a, integer b => some (compare a.toInt b.toInt)
  | dateTime a, dateTime b => some (compare a.toInt b.toInt)
  | text a, text b => some (compare a b)
  | bytes a, bytes b => some (compare (a.map UInt8.toNat) (b.map UInt8.toNat))
  | a, b => compareNumbers? a b

/-- Ranks the kinds, for values of kinds that do not compare. -/
def rank : Scalar → Nat
  | null => 0
  | integer _ => 1
  | number _ => 1
  | text _ => 2
  | bytes _ => 3
  | boolean _ => 4
  | dateTime _ => 5
  | other => 6

end Scalar

/-- The order of two values, if they compare. -/
def Value.compare? (a b : Value) : Option Ordering := a.scalar.compare? b.scalar

/-! ## The order of sorted results

Sorting needs an answer for every pair: values that do not compare are ordered
by the rank of their kinds. -/

/-- The scalar by which a field sorts. A missing field sorts as null, an
object identifier by its hexadecimal digits, and a value without a scalar
order by its text. -/
def sortKey : Option Value → Scalar
  | none => .null
  | some (.objectId id) => .text id.hex
  | some v =>
      match v.scalar with
      | .other => .text v.text
      | s => s

def sortCompare (a b : Option Value) : Ordering :=
  let x := sortKey a
  let y := sortKey b
  (x.compare? y).getD (compare x.rank y.rank)

end DocStore
