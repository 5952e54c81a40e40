import DocStore.Bytes
import DocStore.Decimal
import DocStore.Decimal128

/-!
# Values and documents

A `Value` is one of the twenty-one kinds of the BSON data model. A document is
a list of named values in order; its names are distinct (`Value.WellFormed`
says so at every depth), and the operations here keep them so: `insert` writes
over a field where it stands and appends a new one, `erase` leaves the order
of the rest.
-/

namespace DocStore

inductive Value where
  | double (number : Double)
  | string (text : String)
  | array (items : List Value)
  | document (fields : List (String × Value))
  | boolean (b : Bool)
  | null
  | regex (pattern options : String)
  | code (source : String)
  | scopedCode (source : String) (scope : List (String × Value))
  | int32 (n : Int32)
  | int64 (n : Int64)
  | timestamp (time increment : UInt32)
  | binary (subtype : UInt8) (bytes : List UInt8)
  | objectId (id : ObjectId)
  | dateTime (millis : Int64)
  | symbol (text : String)
  | decimal128 (number : Decimal128)
  | undefined
  | maxKey
  | minKey
  | dbPointer (target : String) (id : ObjectId)
  deriving Repr, Inhabited

abbrev Document := List (String × Value)

/-! ## Fields -/

namespace Document

def get? (d : Document) (key : String) : Option Value := d.lookup key

def contains (d : Document) (key : String) : Bool := (d.get? key).isSome

def keys (d : Document) : List String := d.map (·.1)

/-- Writes a field where it stands, or at the end when it is new. -/
def insert : Document → String → Value → Document
  | [], key, v => [(key, v)]
  | (k, w) :: rest, key, v =>
      if k = key then (k, v) :: rest else (k, w) :: insert rest key v

def erase (d : Document) (key : String) : Document := d.filter (·.1 != key)

/-- A field written twice keeps its first place and its last value. -/
def ofFields (fields : List (String × Value)) : Document :=
  fields.foldl (fun d field => insert d field.1 field.2) []

/-- A key that names an operator and not a field. -/
def isOperatorKey (key : String) : Bool := key.toList.head? == some '$'

def hasOperatorKey (d : Document) : Bool := d.keys.any isOperatorKey

/-! ### Reading after writing -/

@[simp] theorem get?_cons (k : String) (w : Value) (rest : Document) (key : String) :
    get? ((k, w) :: rest) key = if key = k then some w else get? rest key := by
  by_cases h : key = k
  · simp [get?, h]
  · have hb : (key == k) = false := by simpa using h
    simp [get?, List.lookup_cons, h, hb]

theorem get?_insert_self (d : Document) (key : String) (v : Value) :
    (d.insert key v).get? key = some v := by
  induction d with
  | nil => simp [insert]
  | cons field rest ih =>
      obtain ⟨k, w⟩ := field
      by_cases h : k = key
      · simp [insert, h]
      · simp [insert, h, Ne.symm h, ih]

theorem get?_insert_of_ne (d : Document) {key other : String} (v : Value) (h : other ≠ key) :
    (d.insert key v).get? other = d.get? other := by
  induction d with
  | nil => simp [insert, h]
  | cons field rest ih =>
      obtain ⟨k, w⟩ := field
      by_cases hk : k = key
      · subst hk; simp [insert, h]
      · simp [insert, hk, ih]

theorem get?_erase_self (d : Document) (key : String) : (d.erase key).get? key = none := by
  induction d with
  | nil => rfl
  | cons field rest ih =>
      obtain ⟨k, w⟩ := field
      by_cases h : k = key
      · simpa [erase, h] using ih
      · have hrest : get? (rest.filter (·.1 != key)) key = none := ih
        simp [erase, h, Ne.symm h, hrest]

theorem get?_erase_of_ne (d : Document) {key other : String} (h : other ≠ key) :
    (d.erase key).get? other = d.get? other := by
  induction d with
  | nil => rfl
  | cons field rest ih =>
      obtain ⟨k, w⟩ := field
      have hrest : get? (rest.filter (·.1 != key)) other = get? rest other := ih
      by_cases hk : k = key
      · subst hk; simp [erase, h, hrest]
      · simp [erase, hk, hrest]

/-- A new name goes to the end; writing over a field moves nothing. -/
theorem keys_insert (d : Document) (key : String) (v : Value) :
    (d.insert key v).keys = if key ∈ d.keys then d.keys else d.keys ++ [key] := by
  induction d with
  | nil => simp [insert, keys]
  | cons field rest ih =>
      obtain ⟨k, w⟩ := field
      by_cases h : k = key
      · simp [insert, keys, h]
      · by_cases hm : key ∈ keys rest
        · rw [if_pos hm] at ih
          have hkeys : key ∈ keys ((k, w) :: rest) := List.mem_cons_of_mem k hm
          rw [if_pos hkeys, insert, if_neg h]
          exact congrArg (k :: ·) ih
        · rw [if_neg hm] at ih
          have hkeys : key ∉ keys ((k, w) :: rest) := by
            intro hmem
            rcases List.mem_cons.mp hmem with he | htail
            · exact h he.symm
            · exact hm htail
          rw [if_neg hkeys, insert, if_neg h]
          exact congrArg (k :: ·) ih

end Document

/-! ## Distinct names -/

mutual

/-- The names of every document in the value are distinct. -/
def Value.WellFormed : Value → Prop
  | .array items => allWellFormed items
  | .document fields => (fields.map (·.1)).Nodup ∧ fieldsWellFormed fields
  | .scopedCode _ scope => (scope.map (·.1)).Nodup ∧ fieldsWellFormed scope
  | _ => True

def allWellFormed : List Value → Prop
  | [] => True
  | v :: rest => v.WellFormed ∧ allWellFormed rest

def fieldsWellFormed : List (String × Value) → Prop
  | [] => True
  | (_, v) :: rest => v.WellFormed ∧ fieldsWellFormed rest

end

/-! ## Kinds -/

namespace Value

/-- The name of a value's kind. -/
def kindName : Value → String
  | double _ => "Double"
  | string _ => "String"
  | array _ => "Array"
  | document _ => "Document"
  | boolean _ => "Boolean"
  | null => "Null"
  | regex _ _ => "RegularExpression"
  | code _ => "JavaScriptCode"
  | scopedCode _ _ => "JavaScriptCodeWithScope"
  | int32 _ => "Int32"
  | int64 _ => "Int64"
  | timestamp _ _ => "Timestamp"
  | binary _ _ => "Binary"
  | objectId _ => "ObjectId"
  | dateTime _ => "DateTime"
  | symbol _ => "Symbol"
  | decimal128 _ => "Decimal128"
  | undefined => "Undefined"
  | maxKey => "MaxKey"
  | minKey => "MinKey"
  | dbPointer _ _ => "DbPointer"

def isDocument : Value → Bool
  | document _ => true
  | _ => false

def isArray : Value → Bool
  | array _ => true
  | _ => false

/-- Whether a value counts as true where a yes or no is expected. -/
def isTruthy : Value → Bool
  | boolean b => b
  | int32 n => n != 0
  | int64 n => n != 0
  | double d => !d.isZero
  | string s => s != "" && s != "0"
  | null => false
  | undefined => false
  | _ => true

end Value

end DocStore
