import DocStore.Json
import DocStore.Record

/-!
# Cursors

The results of a query: the matching documents as they were when the query
ran, and the shapes they are to be handed out in.
-/

namespace DocStore

inductive Rendered where
  | bson (d : Document)
  | json (j : Json)

structure Cursor where
  documents : List Document
  typeMap : TypeMap

namespace Cursor

def next? (c : Cursor) : Option (Document × Cursor) :=
  match c.documents with
  | [] => none
  | d :: rest => some (d, { c with documents := rest })

/-- The number of documents that are left. -/
def size (c : Cursor) : Nat := c.documents.length

/-- The documents that are left, in their root shape. -/
def materialize (c : Cursor) : List Rendered :=
  c.documents.map fun d =>
    match c.typeMap.rootShape with
    | .bson => .bson d
    | .json => .json (d.json c.typeMap)

/-- The documents that are left, as records. -/
def decode (α : Type) [Record α] (c : Cursor) : Except Error (List α) :=
  c.documents.mapM Record.decode

end Cursor

end DocStore
