import DocStore.Cursor
import DocStore.Log
import DocStore.Paging
import DocStore.Query.Compile
import DocStore.Update.Upsert

/-!
# Collections

A collection is a list of documents in the order of their insertion, together
with the log of the queries made and the indexes created. Every document has
an identifier under `_id`, and no two documents have the same one.

An operation takes a collection to the collection after it and an answer, which
may be an error. What fails leaves the documents as they are, except that the
documents inserted before the one that fails stay in (`insertMany`). Queries
are logged even if they fail.

Identifiers are not made up here: whoever inserts brings a fresh one along, for
the case that it is needed.
-/

namespace DocStore

/-! ## Settings -/

structure CollectionSettings where
  name : String
  database : Option String
  typeMap : TypeMap
  compiler : Settings

/-- Settings that a collection may override. -/
structure CollectionOptions where
  typeMap : Option TypeMap
  listPatterns : Option Bool
  deriving DecidableEq, Repr

def CollectionOptions.none : CollectionOptions := ⟨Option.none, Option.none⟩

namespace CollectionSettings

def defaultName : String := "collection"

def ofName (name : String) : CollectionSettings := ⟨name, none, .empty, .default⟩

/-- The name with that of the database in front. -/
def fullName (s : CollectionSettings) : String :=
  match s.database with
  | some database => database ++ "." ++ s.name
  | none => s.name

def override (s : CollectionSettings) (o : CollectionOptions) : CollectionSettings :=
  { s with
    typeMap := s.typeMap.merge (o.typeMap.getD .empty)
    compiler := { s.compiler with
      listPatterns := o.listPatterns.getD s.compiler.listPatterns } }

def withOperators (s : CollectionSettings) (more : Operators) : CollectionSettings :=
  { s with compiler := { s.compiler with operators := s.compiler.operators.extend more } }

end CollectionSettings

structure Collection where
  settings : CollectionSettings
  documents : List Document
  queries : List QueryRecord
  indexes : List IndexRecord
  dropped : Bool

/-! ## Identifiers -/

def idField : String := "_id"

/-- A document to be inserted, and the identifier it gets if it has none. -/
structure Draft where
  fresh : ObjectId
  document : Document

/-- A missing identifier is put before all other fields. -/
def Draft.complete (d : Draft) : Value × Document :=
  match d.document.get? idField with
  | some id => (id, d.document)
  | none => (.objectId d.fresh, (idField, .objectId d.fresh) :: d.document)

/-- Object identifiers and strings are identified by their text. -/
def Value.isTextual : Value → Bool
  | .objectId _ => true
  | .string _ => true
  | _ => false

def sameIdentifier (a b : Value) : Bool :=
  if a.isTextual && b.isTextual then a.identifierText == b.identifierText else a.strictEq b

/-! ## Results -/

/-- The identifier of the document inserted. -/
abbrev InsertOneResult := Value

def InsertOneResult.insertedCount (_ : InsertOneResult) : Nat := 1

/-- The identifiers of the documents inserted, in their order. -/
abbrev InsertManyResult := List Value

def InsertManyResult.insertedCount (r : InsertManyResult) : Nat := r.length

structure UpdateResult where
  matched : Nat
  modified : Nat
  /-- The identifiers of the documents inserted by an upsert. -/
  upserted : List Value

namespace UpdateResult

def upsertedCount (r : UpdateResult) : Nat := r.upserted.length

def upsertedId? (r : UpdateResult) : Option Value := r.upserted.head?

end UpdateResult

structure DeleteResult where
  matched : Nat
  /-- The identifiers of the documents taken out. -/
  ids : List Value

def DeleteResult.deletedCount (r : DeleteResult) : Nat := r.ids.length

/-! ## Documents -/

/-- Documents after an update, and how many it matched and changed. -/
structure Updated where
  documents : List Document
  matched : Nat
  modified : Nat

/-- Updates the documents that satisfy the query: all of them, or the first. -/
def updateMatching (q : Query) (u : Update) (many : Bool) : List Document → Except Error Updated
  | [] => .ok ⟨[], 0, 0⟩
  | d :: rest =>
      if q.holds d then do
        let (updated, changed) ← u.apply d
        let tail ← if many then updateMatching q u many rest else pure ⟨rest, 0, 0⟩
        return ⟨updated :: tail.documents, tail.matched + 1, tail.modified + changed.toNat⟩
      else do
        let tail ← updateMatching q u many rest
        return { tail with documents := d :: tail.documents }

/-- Splits off the documents that satisfy the query: all of them, or the
first. -/
def extract (q : Query) (many : Bool) : List Document → List Document × List Document
  | [] => ([], [])
  | d :: rest =>
      if q.holds d then
        if many then
          let (out, left) := extract q many rest
          (d :: out, left)
        else ([d], rest)
      else
        let (out, left) := extract q many rest
        (out, d :: left)

/-! ## Operations -/

namespace Collection

variable [Pattern.Engine]

def new (settings : CollectionSettings) : Collection := ⟨settings, [], [], [], false⟩

def compile (c : Collection) (f : Filter) : Except Error Query := f.compile c.settings.compiler

/-- A step that fails changes nothing. -/
def settle {α : Type} (c : Collection) (step : Except Error (Collection × α)) :
    Collection × Except Error α :=
  match step with
  | .ok (after, answer) => (after, .ok answer)
  | .error e => (c, .error e)

def hasIdentifier (c : Collection) (id : Value) : Bool :=
  c.documents.any fun d => (d.get? idField).any fun taken => sameIdentifier taken id

/-- Puts a document at the end, unless its identifier is taken. -/
def add (c : Collection) (draft : Draft) : Except Error (Collection × Value) :=
  let (id, document) := draft.complete
  if c.hasIdentifier id then .error (.duplicateKey id.identifierText c.settings.name)
  else .ok ({ c with documents := c.documents ++ [document] }, id)

/-! ### Insertion -/

def insertOne (c : Collection) (draft : Draft) : Collection × Except Error InsertOneResult :=
  c.settle (c.add draft)

/-- Inserts one after the other up to the first that fails. -/
def insertMany (c : Collection) : List Draft → Collection × Except Error InsertManyResult
  | [] => (c, .ok [])
  | draft :: rest =>
      match c.add draft with
      | .error e => (c, .error e)
      | .ok (next, id) =>
          let (after, answer) := next.insertMany rest
          (after, answer.map (id :: ·))

def insertRecord {α : Type} [Record α] (c : Collection) (fresh : ObjectId) (r : α) :
    Collection × Except Error InsertOneResult :=
  c.settle (Record.toDocument r >>= fun d => c.add ⟨fresh, d⟩)

/-! ### Queries -/

/-- The documents that a query finds, and their shapes. -/
def run (c : Collection) (f : Filter) (options : FindOptions) : Except Error Cursor := do
  let q ← c.compile f
  return ⟨options.apply (q.select c.documents),
    c.settings.typeMap.merge (options.typeMap.getD .empty)⟩

def log (c : Collection) (f : Filter) (options : Option FindOptions) : Collection :=
  { c with queries := c.queries ++ [⟨f, options⟩] }

def find (c : Collection) (f : Filter) (options : Option FindOptions) :
    Collection × Except Error Cursor :=
  (c.log f options, c.run f (options.getD .default))

def findOne (c : Collection) (f : Filter) (options : Option FindOptions) :
    Collection × Except Error (Option Document) :=
  (c.log f options, (c.run f (options.getD .default)).map (·.documents.head?))

def all (c : Collection) : Collection × Except Error (List Document) :=
  (c.log .empty none, (c.run .empty .default).map (·.documents))

def findAs (α : Type) [Record α] (c : Collection) (f : Filter)
    (options : Option FindOptions) : Collection × Except Error (List α) :=
  (c.log f options, c.run f (options.getD .default) >>= Cursor.decode α)

def count (c : Collection) (f : Filter) : Except Error Nat := do
  let q ← c.compile f
  return (q.select c.documents).length

def hasDocument (c : Collection) (f : Filter) : Except Error Bool :=
  (c.count f).map (0 < ·)

/-! ### Updates -/

/-- Inserts what the update makes of a filter that matches nothing. -/
def upsert (c : Collection) (f : Filter) (u : Update) (fresh : ObjectId) :
    Except Error (Collection × Value) := do
  let d ← u.upsertDocument f
  c.add ⟨fresh, d⟩

/-- Updates the documents that match, all of them or the first. If none does
and an upsert is wanted, a document is inserted, `fresh` being its identifier
if it gets none otherwise. -/
def update (c : Collection) (many : Bool) (f : Filter) (update : Document) (upsert : Bool)
    (fresh : ObjectId) : Collection × Except Error UpdateResult :=
  c.settle do
    let u ← Update.parse update
    let q ← c.compile f
    let after ← updateMatching q u many c.documents
    if after.matched = 0 && upsert then
      let (c, id) ← c.upsert f u fresh
      return (c, ⟨0, 0, [id]⟩)
    else return ({ c with documents := after.documents }, ⟨after.matched, after.modified, []⟩)

def updateOne (c : Collection) := c.update false

def updateMany (c : Collection) := c.update true

/-- The matching documents with their positions, sorted if a sort is given. -/
def candidates (c : Collection) (q : Query) (sort : Option Document) : List (Document × Nat) :=
  let found := c.documents.zipIdx.filter fun candidate => q.holds candidate.1
  match sort with
  | none => found
  | some spec => sortBy spec (·.1) found

/-- Updates the first of the candidates and answers it, as it was or as it is
now. After an upsert there is no document as it was. -/
def findOneAndUpdate (c : Collection) (f : Filter) (update : Document)
    (options : FindAndUpdateOptions) (fresh : ObjectId) :
    Collection × Except Error (Option Document) :=
  c.settle do
    let u ← Update.parse update
    let q ← c.compile f
    match c.candidates q options.sort with
    | [] =>
        if options.upsert then
          let (c, _) ← c.upsert f u fresh
          return (c, if options.returnAfter then c.documents.getLast? else none)
        else return (c, none)
    | (old, position) :: _ =>
        let (updated, _) ← u.apply old
        return ({ c with documents := c.documents.set position updated },
          some (if options.returnAfter then updated else old))

/-! ### Deletion -/

def delete (c : Collection) (many : Bool) (f : Filter) : Collection × Except Error DeleteResult :=
  c.settle do
    let q ← c.compile f
    let (out, left) := extract q many c.documents
    return ({ c with documents := left }, ⟨out.length, out.filterMap (·.get? idField)⟩)

def deleteOne (c : Collection) (f : Filter) : Collection × Except Error DeleteResult :=
  c.delete false f

def deleteMany (c : Collection) (f : Filter) : Collection × Except Error DeleteResult :=
  c.delete true f

/-- Takes all documents out; the logs and the indexes stay. -/
def drop (c : Collection) : Collection := { c with documents := [], dropped := true }

/-! ### Indexes -/

/-- Writes an entry over the one of the same name, or at the end. -/
def recordIndex : List IndexRecord → IndexRecord → List IndexRecord
  | [], r => [r]
  | old :: rest, r => if old.name = r.name then r :: rest else old :: recordIndex rest r

def createIndex (c : Collection) (m : IndexModel) : Collection × String :=
  ({ c with indexes := recordIndex c.indexes ⟨m.name, m.keys, m.options⟩ }, m.name)

def createIndexes (c : Collection) : List IndexModel → Collection × List String
  | [] => (c, [])
  | m :: rest =>
      let (next, name) := c.createIndex m
      let (after, names) := next.createIndexes rest
      (after, name :: names)

def listIndexes (c : Collection) : List IndexInfo :=
  c.indexes.map fun r => ⟨1, r.keys, r.name, r.options.unique.getD false, c.settings.fullName⟩

def hasIndex (c : Collection) (keys : IndexKeys) (options : IndexOptions) : Bool :=
  c.indexes.any (·.satisfies keys options)

def hasQuery (c : Collection) (f : Filter) (options : Option FindOptions) : Bool :=
  c.queries.any (·.satisfies f options)

end Collection

end DocStore
