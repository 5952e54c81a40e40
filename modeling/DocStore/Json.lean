import DocStore.Options
import DocStore.Value.Text

/-!
# Values as JSON

Two JSON forms of a value. In the plain form (`Value.json`) numbers are JSON
numbers, and documents and arrays follow their shapes; in the canonical form
(`Value.canonicalJson`) numbers are tagged with their kind and written as text,
so that no kind is lost. What JSON has no kind for is an object with a key that
starts with a dollar sign, the same in both forms.
-/

namespace DocStore

inductive Json where
  | null
  | boolean (b : Bool)
  | integer (n : Int)
  | number (d : Double)
  | string (s : String)
  | array (items : List Json)
  | object (fields : List (String × Json))
  deriving Repr, Inhabited

namespace Json

def tagged (tag : String) (content : Json) : Json := object [(tag, content)]

/-- JSON has no numbers that are infinite or not a number. -/
def ofDouble (d : Double) : Json := if d.isFinite then number d else null

end Json

/-- Two hexadecimal digits, as in the tag of a binary value. -/
def subtypeText (subtype : UInt8) : String := String.ofList (hexPair subtype)

/-- Plain bytes are a list of numbers; other binary values keep their
subtype. -/
def binaryJson (subtype : UInt8) (bytes : List UInt8) : Json :=
  if subtype = 0 then .array (bytes.map fun b => .integer b.toNat)
  else
    .tagged "$binary" (.object
      [("base64", .string (base64 bytes)), ("subType", .string (subtypeText subtype))])

/-- The form of a value that has no parts. -/
def Value.leafJson : Value → Json
  | .double d => .ofDouble d
  | .string s => .string s
  | .boolean b => .boolean b
  | .regex pattern options =>
      .tagged "$regularExpression" (.object
        [("pattern", .string pattern), ("options", .string options)])
  | .code source => .tagged "$code" (.string source)
  | .int32 n => .integer n.toInt
  | .int64 n => .integer n.toInt
  | .timestamp time increment =>
      .tagged "$timestamp" (.object
        [("t", .integer time.toNat), ("i", .integer increment.toNat)])
  | .binary subtype bytes => binaryJson subtype bytes
  | .objectId id => .tagged "$oid" (.string id.hex)
  | .dateTime millis =>
      .tagged "$date" (.tagged "$numberLong" (.string (toString millis.toInt)))
  | .symbol s => .tagged "$symbol" (.string s)
  | .decimal128 d => .tagged "$numberDecimal" (.string d.text)
  | .undefined => .tagged "$undefined" (.boolean true)
  | .maxKey => .tagged "$maxKey" (.integer 1)
  | .minKey => .tagged "$minKey" (.integer 1)
  | .dbPointer target id =>
      .tagged "$dbPointer" (.object
        [("$ref", .string target), ("$id", .tagged "$oid" (.string id.hex))])
  | .null => .null
  | .array _ => .null
  | .document _ => .null
  | .scopedCode _ _ => .null

def scopedCodeJson (source : String) (scope : List (String × Json)) : Json :=
  .object [("$code", .string source), ("$scope", .object scope)]

/-! ## Everything as JSON -/

mutual

/-- The plain form at every depth. -/
def Value.fullJson : Value → Json
  | .array items => .array (itemsJson items)
  | .document fields => .object (fieldsJson fields)
  | .scopedCode source scope => scopedCodeJson source (fieldsJson scope)
  | v => v.leafJson

def itemsJson : List Value → List Json
  | [] => []
  | v :: rest => v.fullJson :: itemsJson rest

def fieldsJson : List (String × Value) → List (String × Json)
  | [] => []
  | (key, v) :: rest => (key, v.fullJson) :: fieldsJson rest

end

/-! ## The canonical form -/

mutual

def Value.canonicalJson : Value → Json
  | .int32 n => .tagged "$numberInt" (.string (toString n.toInt))
  | .int64 n => .tagged "$numberLong" (.string (toString n.toInt))
  | .double d => .tagged "$numberDouble" (.string d.text)
  | .array items => .array (canonicalItems items)
  | .document fields => .object (canonicalFields fields)
  | v => v.fullJson

def canonicalItems : List Value → List Json
  | [] => []
  | v :: rest => v.canonicalJson :: canonicalItems rest

def canonicalFields : List (String × Value) → List (String × Json)
  | [] => []
  | (key, v) :: rest => (key, v.canonicalJson) :: canonicalFields rest

end

/-! ## By shape -/

mutual

/-- A document or array is in the plain form if its shape is JSON, and all of
it is in the canonical form otherwise. -/
def Value.json (m : TypeMap) : Value → Json
  | .array items =>
      if m.arrayShape = .json then .array (shapedItems m items)
      else .array (canonicalItems items)
  | .document fields =>
      if m.documentShape = .json then .object (shapedFields m fields)
      else .object (canonicalFields fields)
  | v => v.fullJson

def shapedItems (m : TypeMap) : List Value → List Json
  | [] => []
  | v :: rest => v.json m :: shapedItems m rest

def shapedFields (m : TypeMap) : List (String × Value) → List (String × Json)
  | [] => []
  | (key, v) :: rest => (key, v.json m) :: shapedFields m rest

end

/-- A result document; its own fields are in the plain form in any case. -/
def Document.json (m : TypeMap) (d : Document) : Json := .object (shapedFields m d)

end DocStore
