import DocStore.Value.Equality

/-!
# Indexes

Descriptions of indexes. They are only kept and listed; no query consults
them.
-/

namespace DocStore

inductive IndexKeys where
  | field (name : String)
  | fields (d : Document)

namespace IndexKeys

/-- A single field stands for an ascending index on it. -/
def toDocument : IndexKeys → Document
  | field name => [(name, .int32 1)]
  | fields d => d

/-- The name of an index that is given none. -/
def derivedName (keys : IndexKeys) : String :=
  "_".intercalate (keys.toDocument.keys.map (· ++ "_1"))

end IndexKeys

structure IndexOptions where
  unique : Option Bool
  name : Option String
  deriving DecidableEq, Repr

structure IndexModel where
  keys : IndexKeys
  options : IndexOptions

def IndexModel.name (m : IndexModel) : String := m.options.name.getD m.keys.derivedName

/-- An index as it is listed. -/
structure IndexInfo where
  version : Nat
  keys : IndexKeys
  name : String
  unique : Bool
  fullName : String

end DocStore
