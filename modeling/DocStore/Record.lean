import DocStore.Error
import DocStore.Value

/-!
# Records

Types of one's own that are stored as documents. A record type says how it is
written as a value and how it is read from a document; fields that it does not
name are passed over.
-/

namespace DocStore

class Record (α : Type) where
  encode : α → Value
  decode : Document → Except Error α

/-- Only a document can be stored. -/
def Value.asDocument : Value → Except Error Document
  | .document d => .ok d
  | v => .error (.serialization ("expected a document, found " ++ v.kindName))

def Record.toDocument {α : Type} [Record α] (r : α) : Except Error Document :=
  (Record.encode r).asDocument

/-! ## Fields -/

namespace Document

def field (d : Document) (key : String) : Except Error Value :=
  match d.get? key with
  | some v => .ok v
  | none => .error (.serialization ("missing field " ++ key))

def mistyped (key wanted : String) (v : Value) : Error :=
  .serialization ("field " ++ key ++ ": expected " ++ wanted ++ ", found " ++ v.kindName)

def stringField (d : Document) (key : String) : Except Error String := do
  match ← d.field key with
  | .string s => return s
  | v => throw (mistyped key "a string" v)

/-- A number of 32 bits, even if it is stored in 64. -/
def int32Field (d : Document) (key : String) : Except Error Int32 := do
  match ← d.field key with
  | .int32 n => return n
  | .int64 n =>
      if n.toInt32.toInt64 = n then return n.toInt32
      else throw (mistyped key "a 32-bit integer" (.int64 n))
  | v => throw (mistyped key "a 32-bit integer" v)

end Document

end DocStore
