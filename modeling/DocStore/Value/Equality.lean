import DocStore.Value.Scalar

/-!
# Equalities of values

Three equalities, from fine to coarse.

* `Value.same`: same kind and same content. Documents are compared by key and
  not by order, numbers numerically, so NaN is not the same as itself.
* `Value.strictEq`: as `same`, but documents also agree in the order of their
  keys, and the two widths of integer are one kind.
* `Value.looseEq`: by value across kinds. Scalars are equal when they compare
  equal, an object identifier equals its hexadecimal digits, arrays go item by
  item and documents key by key in any order.
-/

namespace DocStore

/-! ## Same kind and content -/

mutual

def Value.same : Value → Value → Bool
  | .double a, .double b => a.numEq b
  | .string a, .string b => a == b
  | .array xs, .array ys => sameItems xs ys
  | .document xs, .document ys => xs.length == ys.length && sameFields xs ys
  | .boolean a, .boolean b => a == b
  | .null, .null => true
  | .regex p o, .regex q r => p == q && o == r
  | .code a, .code b => a == b
  | .scopedCode a xs, .scopedCode b ys =>
      a == b && xs.length == ys.length && sameFields xs ys
  | .int32 a, .int32 b => a == b
  | .int64 a, .int64 b => a == b
  | .timestamp t i, .timestamp u j => t == u && i == j
  | .binary s xs, .binary t ys => s == t && xs == ys
  | .objectId a, .objectId b => a == b
  | .dateTime a, .dateTime b => a == b
  | .symbol a, .symbol b => a == b
  | .decimal128 a, .decimal128 b => a == b
  | .undefined, .undefined => true
  | .maxKey, .maxKey => true
  | .minKey, .minKey => true
  | .dbPointer s a, .dbPointer t b => s == t && a == b
  | _, _ => false

def sameItems : List Value → List Value → Bool
  | [], [] => true
  | x :: xs, y :: ys => x.same y && sameItems xs ys
  | _, _ => false

/-- Every field of the first has its like in the second. -/
def sameFields : List (String × Value) → List (String × Value) → Bool
  | [], _ => true
  | (key, x) :: xs, ys =>
      (match ys.lookup key with
        | some y => x.same y
        | none => false) && sameFields xs ys

end

/-- Equality of documents in any order of their keys. -/
def Document.same (a b : Document) : Bool := a.length == b.length && sameFields a b

/-! ## Strict equality -/

mutual

def Value.strictEq : Value → Value → Bool
  | .int32 a, .int64 b => a.toInt64 == b
  | .int64 a, .int32 b => a == b.toInt64
  | .array xs, .array ys => strictItems xs ys
  | .document xs, .document ys => strictFields xs ys
  | a, b => a.same b

def strictItems : List Value → List Value → Bool
  | [], [] => true
  | x :: xs, y :: ys => x.strictEq y && strictItems xs ys
  | _, _ => false

def strictFields : List (String × Value) → List (String × Value) → Bool
  | [], [] => true
  | (k, x) :: xs, (l, y) :: ys => k == l && x.strictEq y && strictFields xs ys
  | _, _ => false

end

/-! ## Loose equality -/

/-- Loose equality of values that are neither documents nor arrays. A value
without a scalar order is equal only to the same value. -/
def looseScalarEq (a b : Value) : Bool :=
  match a.scalar, b.scalar with
  | .other, _ => a.same b
  | _, .other => a.same b
  | x, y => x.compare? y == some .eq

mutual

def Value.looseEq : Value → Value → Bool
  | .document xs, .document ys => xs.length == ys.length && looseFields xs ys
  | .array xs, .array ys => looseItems xs ys
  | .objectId id, .string s => id.hex == s
  | .string s, .objectId id => id.hex == s
  | .document _, _ => false
  | .array _, _ => false
  | _, .document _ => false
  | _, .array _ => false
  | a, b => looseScalarEq a b

def looseItems : List Value → List Value → Bool
  | [], [] => true
  | x :: xs, y :: ys => x.looseEq y && looseItems xs ys
  | _, _ => false

def looseFields : List (String × Value) → List (String × Value) → Bool
  | [], _ => true
  | (key, x) :: xs, ys =>
      (match ys.lookup key with
        | some y => x.looseEq y
        | none => false) && looseFields xs ys

end

end DocStore
