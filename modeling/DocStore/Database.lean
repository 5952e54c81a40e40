import DocStore.Collection

/-!
# Databases

A database gives out collections by name and registers them in the order of
their creation. A handle stays with the collection it was given out for: two
handles for one name are one collection, unless the collection was dropped in
between, and a dropped collection can still be used through its handles.
-/

namespace DocStore

/-- A collection of a database, for as long as the program runs. -/
structure Handle where
  index : Nat
  deriving DecidableEq, Repr

/-- A name in use. -/
structure Registration where
  name : String
  options : CollectionOptions
  handle : Handle

structure Database where
  name : String
  defaults : CollectionOptions
  operators : Operators
  /-- Every collection ever created, the dropped ones too. -/
  collections : List Collection
  registrations : List Registration

namespace Database

def defaultName : String := "database"

def new (name : String) (defaults : CollectionOptions) (operators : Operators) : Database :=
  ⟨name, defaults, operators, [], []⟩

def lookup? (db : Database) (name : String) : Option Registration :=
  db.registrations.find? (·.name == name)

def get? (db : Database) (h : Handle) : Option Collection := db.collections[h.index]?

/-- The settings of a new collection: the defaults of the database, then its
own options. -/
def settingsFor (db : Database) (name : String) (options : CollectionOptions) :
    CollectionSettings :=
  let s := { CollectionSettings.ofName name with database := some db.name }
  ((s.override db.defaults).withOperators db.operators).override options

def register (db : Database) (name : String) (options : CollectionOptions) :
    Database × Handle :=
  let handle : Handle := ⟨db.collections.length⟩
  ({ db with
      collections := db.collections ++ [.new (db.settingsFor name options)]
      registrations := db.registrations ++ [⟨name, options, handle⟩] }, handle)

/-- Creates a collection under a name that is not in use. -/
def create (db : Database) (name : String) (options : CollectionOptions) :
    Database × Except Error Handle :=
  match db.lookup? name with
  | some _ => (db, .error (.collectionAlreadyExists (db.name ++ "." ++ name)))
  | none =>
      let (after, handle) := db.register name options
      (after, .ok handle)

/-- The collection of that name, which is created if there is none. The options
count only in that case. -/
def select (db : Database) (name : String) (options : CollectionOptions) : Database × Handle :=
  match db.lookup? name with
  | some r => (db, r.handle)
  | none => db.register name options

def collection (db : Database) (name : String) : Database × Handle := db.select name .none

/-- Names with that of the database in front, in order of creation. -/
def listCollections (db : Database) : List (String × CollectionOptions) :=
  db.registrations.map fun r => (db.name ++ "." ++ r.name, r.options)

/-- Runs an operation on a collection. -/
def run {α : Type} (db : Database) (h : Handle) (op : Collection → Collection × α) :
    Option (Database × α) :=
  (db.get? h).map fun c =>
    let (after, answer) := op c
    ({ db with collections := db.collections.set h.index after }, answer)

def dropAt (db : Database) (h : Handle) : Database :=
  { db with collections := db.collections.modify h.index Collection.drop }

/-- Drops the collection of that name, if there is one, and frees the name. -/
def dropCollection (db : Database) (name : String) : Database × Bool :=
  match db.lookup? name with
  | none => (db, false)
  | some r =>
      ({ db.dropAt r.handle with
          registrations := db.registrations.eraseP (·.name == name) }, true)

end Database

end DocStore
