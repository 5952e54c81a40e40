import DocStore.Error
import DocStore.Value.Text

/-!
# Field paths

A path names a field of a document: `a.b.c` descends through embedded
documents by key and through arrays by index. When reading, a field whose key
is the whole path, dots and all, wins over the descent.

Reading is `resolve?`; `replace?` overwrites what `resolve?` finds and finds
exactly the same paths. `set` creates what is missing on the way, and `remove`
takes a field out, or puts null in its place in an array. All of them are
recursions over the segments of the path.
-/

namespace DocStore

namespace Path

/-! ## Segments -/

/-- Cuts at every dot. There is always at least one segment. -/
def splitDots : List Char → List (List Char)
  | [] => [[]]
  | c :: rest =>
      if c = '.' then [] :: splitDots rest
      else
        match splitDots rest with
        | [] => [[c]]
        | segment :: segments => (c :: segment) :: segments

def segments (path : String) : List String :=
  (splitDots path.toList).map String.ofList

def join (segments : List String) : String := ".".intercalate segments

/-- The path without its last segment, and that segment. -/
def parent? (path : String) : Option (String × String) :=
  match (segments path).reverse with
  | leaf :: parent :: rest => some (join (parent :: rest).reverse, leaf)
  | _ => none

def largestIndex : Nat := twoTo 64 - 1

/-- An array index: decimal digits, perhaps after a plus sign. -/
def index? (segment : String) : Option Nat :=
  let digits := match segment.toList with
    | '+' :: rest => rest
    | cs => cs
  if digits.isEmpty || !digits.all isDecimalDigit then none
  else if ofDigits digits ≤ largestIndex then some (ofDigits digits)
  else none

end Path

/-! ## Reading -/

def Value.child? : Value → String → Option Value
  | .document fields, segment => Document.get? fields segment
  | .array items, segment => (Path.index? segment).bind fun i => items[i]?
  | _, _ => none

def Value.descend? : Value → List String → Option Value
  | v, [] => some v
  | v, segment :: rest => (v.child? segment).bind fun child => child.descend? rest

namespace Document

/-- The field at a path; `none` when it is missing, which is not the same as
a null. -/
def resolve? (d : Document) (path : String) : Option Value :=
  match d.get? path with
  | some v => some v
  | none => Value.descend? (.document d) (Path.segments path)

end Document

/-! ## Overwriting -/

/-- Puts `child` where `child?` reads. -/
def Value.withChild : Value → String → Value → Value
  | .document fields, segment, child => .document (Document.insert fields segment child)
  | .array items, segment, child =>
      match Path.index? segment with
      | some i => .array (items.set i child)
      | none => .array items
  | v, _, _ => v

def Value.replaceAt? : Value → List String → Value → Option Value
  | _, [], new => some new
  | v, segment :: rest, new =>
      (v.child? segment).bind fun child =>
        (child.replaceAt? rest new).map fun changed => v.withChild segment changed

/-- Overwrites the field that `resolve?` reads; `none` when it is missing. -/
def Document.replace? (d : Document) (path : String) (new : Value) : Option Document :=
  if d.contains path then some (d.insert path new)
  else
    match Value.replaceAt? (.document d) (Path.segments path) new with
    | some (.document changed) => some changed
    | _ => none

/-! ## Writing -/

/-- How many nulls a write past the end of an array may put before it. -/
def maxArrayPadding : Nat := 1500000

/-- The document that stands for a value to be written into. -/
def Value.orDocument : Value → Value
  | .null => .document []
  | v => v

/-- Writes below a slot. `owner` is the segment that led to it, for messages.
A missing field becomes an empty document first, and so does a null in an
array; an array grows by nulls up to the index. -/
def Value.setAt : Value → String → List String → Value → Except Error Value
  | _, _, [], new => .ok new
  | .document fields, _, segment :: rest, new =>
      let slot := (Document.get? fields segment).getD (.document [])
      (slot.setAt segment rest new).map fun changed =>
        .document (Document.insert fields segment changed)
  | .array items, owner, segment :: rest, new =>
      match Path.index? segment with
      | none =>
          .error (.invalidUpdate
            ("cannot create field '" ++ segment ++ "' in array '" ++ owner ++ "'"))
      | some i =>
          if maxArrayPadding < i - items.length then
            .error (.invalidUpdate
              ("cannot pad array '" ++ owner ++ "' of length " ++ toString items.length
                ++ " up to index " ++ toString i))
          else
            let padded := items ++ List.replicate (i + 1 - items.length) Value.null
            let slot := (padded[i]?.getD .null).orDocument
            (slot.setAt segment rest new).map fun changed => .array (padded.set i changed)
  | v, owner, segment :: rest, _ =>
      .error (.invalidUpdate
        ("cannot create field '" ++ Path.join (segment :: rest) ++ "' in element \x7b"
          ++ owner ++ ": " ++ v.text ++ "\x7d"))

namespace Document

/-- Writes a field, creating the documents on the way to it. A key that holds
the whole path is not looked for. -/
def set (d : Document) (path : String) (new : Value) : Except Error Document :=
  match Path.segments path with
  | [] => .ok d
  | key :: rest =>
      (((d.get? key).getD (.document [])).setAt key rest new).map fun changed =>
        d.insert key changed

/-! ## Removing -/

/-- Takes a field out of its document, or puts null in its place in its array.
Answers what was removed and what is left; `none` when nothing was there. -/
def remove? (d : Document) (path : String) : Option (Value × Document) :=
  match d.get? path with
  | some v => some (v, d.erase path)
  | none => do
      let (owner, leaf) ← Path.parent? path
      match ← d.resolve? owner with
      | .document fields =>
          let v ← Document.get? fields leaf
          return (v, ← d.replace? owner (.document (Document.erase fields leaf)))
      | .array items =>
          let i ← Path.index? leaf
          let v ← items[i]?
          return (v, ← d.replace? owner (.array (items.set i .null)))
      | _ => none

end Document

end DocStore
