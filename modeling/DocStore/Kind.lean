import DocStore.Value

/-!
# Kinds

The kinds that a filter can ask for, by number (`Kind.ofCode?`) or by name
(`Kind.ofAlias?`). Both widths of integer are one kind here, and `number`
covers every numeric kind.
-/

namespace DocStore

inductive Kind where
  | double
  | string
  | document
  | array
  | binary
  | undefined
  | objectId
  | boolean
  | dateTime
  | null
  | regex
  | dbPointer
  | code
  | symbol
  | scopedCode
  | integer
  | timestamp
  | decimal128
  | minKey
  | maxKey
  | number
  deriving DecidableEq, Repr

namespace Kind

def name : Kind → String
  | double => "Double"
  | string => "String"
  | document => "Document"
  | array => "Array"
  | binary => "Binary"
  | undefined => "Undefined"
  | objectId => "ObjectId"
  | boolean => "Boolean"
  | dateTime => "DateTime"
  | null => "Null"
  | regex => "Regex"
  | dbPointer => "DbPointer"
  | code => "JavaScript"
  | symbol => "Symbol"
  | scopedCode => "JavaScriptWithScope"
  | integer => "Integer"
  | timestamp => "Timestamp"
  | decimal128 => "Decimal128"
  | minKey => "MinKey"
  | maxKey => "MaxKey"
  | number => "Number"

/-- Integers and decimals have two codes each. -/
def ofCode? (code : Int) : Option Kind :=
  match code with
  | 1 => some double
  | 2 => some string
  | 3 => some document
  | 4 => some array
  | 5 => some binary
  | 6 => some undefined
  | 7 => some objectId
  | 8 => some boolean
  | 9 => some dateTime
  | 10 => some null
  | 11 => some regex
  | 12 => some dbPointer
  | 13 => some Kind.code
  | 14 => some symbol
  | 15 => some scopedCode
  | 16 => some integer
  | 17 => some timestamp
  | 18 => some integer
  | 19 => some decimal128
  | 127 => some maxKey
  | 128 => some decimal128
  | -1 => some minKey
  | _ => none

def ofAlias? : String → Option Kind
  | "double" => some double
  | "string" => some string
  | "object" => some document
  | "array" => some array
  | "binData" => some binary
  | "undefined" => some undefined
  | "objectId" => some objectId
  | "bool" => some boolean
  | "date" => some dateTime
  | "null" => some null
  | "regex" => some regex
  | "dbPointer" => some dbPointer
  | "javascript" => some code
  | "symbol" => some symbol
  | "javascriptWithScope" => some scopedCode
  | "int" => some integer
  | "long" => some integer
  | "timestamp" => some timestamp
  | "decimal" => some decimal128
  | "minKey" => some minKey
  | "maxKey" => some maxKey
  | "number" => some number
  | _ => none

/-- The narrowest kind of a value. -/
def ofValue : Value → Kind
  | .double _ => double
  | .string _ => string
  | .array _ => array
  | .document _ => document
  | .boolean _ => boolean
  | .null => null
  | .regex _ _ => regex
  | .code _ => code
  | .scopedCode _ _ => scopedCode
  | .int32 _ => integer
  | .int64 _ => integer
  | .timestamp _ _ => timestamp
  | .binary _ _ => binary
  | .objectId _ => objectId
  | .dateTime _ => dateTime
  | .symbol _ => symbol
  | .decimal128 _ => decimal128
  | .undefined => undefined
  | .maxKey => maxKey
  | .minKey => minKey
  | .dbPointer _ _ => dbPointer

def isNumeric (k : Kind) : Bool := k == double || k == integer || k == decimal128

/-- The value is of the kind. -/
def includes (k : Kind) (v : Value) : Bool :=
  if k = number then (ofValue v).isNumeric else ofValue v == k

end Kind

end DocStore
