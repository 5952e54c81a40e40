import DocStore.Value.Equality

/-!
# Options

How results are shaped, sorted and cut (`FindOptions`), and how a single
document is found and updated. An option that is not given falls back to the
default of the collection or of the operation.
-/

namespace DocStore

/-! ## Shapes -/

/-- The form in which documents and arrays are handed out. -/
inductive Shape where
  | bson
  | json
  deriving DecidableEq, Repr

/-- The shapes of a result itself and of the documents and arrays in it. -/
structure TypeMap where
  root : Option Shape
  document : Option Shape
  array : Option Shape
  deriving DecidableEq, Repr

namespace TypeMap

def empty : TypeMap := ⟨none, none, none⟩

def allJson : TypeMap := ⟨some .json, some .json, some .json⟩

/-- The shapes that `overrides` gives win. -/
def merge (defaults overrides : TypeMap) : TypeMap where
  root := overrides.root.or defaults.root
  document := overrides.document.or defaults.document
  array := overrides.array.or defaults.array

def rootShape (m : TypeMap) : Shape := m.root.getD .bson

def documentShape (m : TypeMap) : Shape := m.document.getD .bson

def arrayShape (m : TypeMap) : Shape := m.array.getD .bson

end TypeMap

/-! ## Finding -/

structure FindOptions where
  sort : Option Document
  skip : Option UInt64
  limit : Option Int64
  typeMap : Option TypeMap

namespace FindOptions

def default : FindOptions := ⟨none, none, none, none⟩

def sameSort : Option Document → Option Document → Bool
  | none, none => true
  | some a, some b => a.same b
  | _, _ => false

def same (a b : FindOptions) : Bool :=
  sameSort a.sort b.sort && a.skip == b.skip && a.limit == b.limit && a.typeMap == b.typeMap

end FindOptions

/-! ## Updating one document -/

structure FindAndUpdateOptions where
  sort : Option Document
  upsert : Bool
  /-- Answer the document as it is after the update, and not as it was. -/
  returnAfter : Bool

def FindAndUpdateOptions.default : FindAndUpdateOptions := ⟨none, false, false⟩

end DocStore
