import DocStore.Filter
import DocStore.Unicode.Class

/-!
# Dumps

Texts that show how a value or a filter is built, for people who look for a
fault. Strings are escaped, so that a dump is one line and shows every
character apart.
-/

namespace DocStore

/-! ## Strings -/

/-- Characters that do not show are written by their code. -/
def escapeChar (c : Char) : String :=
  match c with
  | '\x00' => "\\0"
  | '\t' => "\\t"
  | '\r' => "\\r"
  | '\n' => "\\n"
  | '\\' => "\\\\"
  | '"' => "\\\""
  | c =>
      if Unicode.isPrintable c then String.singleton c
      else "\\u\x7b" ++ hexNumber c.toNat ++ "\x7d"

def escaped (s : String) : String := quoted (String.join (s.toList.map escapeChar))

def listDump (items : List String) : String := "[" ++ ", ".intercalate items ++ "]"

def tagDump (name argument : String) : String := name ++ "(" ++ argument ++ ")"

/-! ## Values -/

mutual

def Value.dump : Value → String
  | .double d => tagDump "Double" d.text
  | .string s => tagDump "String" (escaped s)
  | .array items => tagDump "Array" (listDump (itemDumps items))
  | .document fields =>
      tagDump "Document" ("\x7b" ++ ", ".intercalate (fieldDumps fields) ++ "\x7d")
  | .boolean b => tagDump "Boolean" (if b then "true" else "false")
  | .null => "Null"
  | .regex pattern options =>
      "Regex \x7b pattern: " ++ escaped pattern ++ ", options: " ++ escaped options ++ " \x7d"
  | .code source => tagDump "JavaScriptCode" (escaped source)
  | .scopedCode source scope =>
      "JavaScriptCodeWithScope \x7b code: " ++ escaped source ++ ", scope: "
        ++ tagDump "Document" ("\x7b" ++ ", ".intercalate (fieldDumps scope) ++ "\x7d") ++ " \x7d"
  | .int32 n => tagDump "Int32" (toString n.toInt)
  | .int64 n => tagDump "Int64" (toString n.toInt)
  | .timestamp time increment =>
      "Timestamp \x7b time: " ++ toString time.toNat ++ ", increment: "
        ++ toString increment.toNat ++ " \x7d"
  | .binary subtype bytes => (Value.binary subtype bytes).text
  | .objectId id => tagDump "ObjectId" (quoted id.hex)
  | .dateTime millis => (Value.dateTime millis).text
  | .symbol s => tagDump "Symbol" (escaped s)
  | .decimal128 d => tagDump "Decimal128" d.text
  | .undefined => "Undefined"
  | .maxKey => "MaxKey"
  | .minKey => "MinKey"
  | .dbPointer target id =>
      "DbPointer \x7b namespace: " ++ escaped target ++ ", id: "
        ++ tagDump "ObjectId" (quoted id.hex) ++ " \x7d"

def itemDumps : List Value → List String
  | [] => []
  | v :: rest => v.dump :: itemDumps rest

def fieldDumps : List (String × Value) → List String
  | [] => []
  | (key, v) :: rest => (escaped key ++ ": " ++ v.dump) :: fieldDumps rest

end

/-! ## Filters -/

def filterDump (conditions : List String) : String :=
  "Filter \x7b entries: " ++ listDump conditions ++ " \x7d"

mutual

def Condition.dump : Condition → String
  | .value v => tagDump "Value" v.dump
  | .predicate _ => "Predicate(<fn>)"
  | .matcher m => tagDump "Matcher" (escaped m.description)
  | .filters members => tagDump "Filters" (listDump (filterDumps members))

def filterDumps : List (List (String × Condition)) → List String
  | [] => []
  | f :: rest => filterDump (conditionDumps f) :: filterDumps rest

def conditionDumps : List (String × Condition) → List String
  | [] => []
  | (key, c) :: rest => ("(" ++ escaped key ++ ", " ++ c.dump ++ ")") :: conditionDumps rest

end

def Filter.dump (f : Filter) : String := filterDump (conditionDumps f)

end DocStore
