import DocStore.Calendar
import DocStore.Value

/-!
# The text of a value

How a value reads in messages, as an identifier and as a sort key: numbers in
decimal, strings between quotes but not escaped, arrays in brackets, documents
in braces with quoted names, and the remaining kinds by their name.
-/

namespace DocStore

def quoted (s : String) : String := "\"" ++ s ++ "\""

/-- Lower-case hexadecimal without leading zeros. -/
def hexNumber (n : Nat) : String := String.ofList (Nat.toDigits 16 n)

mutual

def Value.text : Value → String
  | .double d => d.text
  | .string s => quoted s
  | .array items => "[" ++ ", ".intercalate (itemTexts items) ++ "]"
  | .document fields =>
      if fields.isEmpty then "\x7b\x7d"
      else "\x7b " ++ ", ".intercalate (fieldTexts fields) ++ " \x7d"
  | .boolean b => if b then "true" else "false"
  | .null => "null"
  | .regex pattern options => "/" ++ pattern ++ "/" ++ options
  | .code source => source
  | .scopedCode source _ => source
  | .int32 n => toString n.toInt
  | .int64 n => toString n.toInt
  | .timestamp time increment =>
      "Timestamp(" ++ toString time.toNat ++ ", " ++ toString increment.toNat ++ ")"
  | .binary subtype bytes =>
      "Binary(0x" ++ hexNumber subtype.toNat ++ ", " ++ base64 bytes ++ ")"
  | .objectId id => "ObjectId(" ++ quoted id.hex ++ ")"
  | .dateTime millis => "DateTime(" ++ quoted (dateText millis.toInt) ++ ")"
  | .symbol s => "Symbol(" ++ quoted s ++ ")"
  | .decimal128 d => d.text
  | .undefined => "undefined"
  | .maxKey => "MaxKey"
  | .minKey => "MinKey"
  | .dbPointer target id => "DbPointer(" ++ target ++ ", " ++ id.hex ++ ")"

def itemTexts : List Value → List String
  | [] => []
  | v :: rest => v.text :: itemTexts rest

def fieldTexts : List (String × Value) → List String
  | [] => []
  | (key, v) :: rest => (quoted key ++ ": " ++ v.text) :: fieldTexts rest

end

/-- The text of an identifier. An object identifier and its hexadecimal string
have the same one. -/
def Value.identifierText : Value → String
  | .objectId id => id.hex
  | .string s => s
  | v => v.text

end DocStore
