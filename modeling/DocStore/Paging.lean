import DocStore.Options
import DocStore.Path
import DocStore.Value.Scalar

/-!
# Sorting and paging

Results are sorted, then the first ones are skipped, then the rest is cut to
the limit. A sort specification names fields with a direction each; later
fields decide only between documents that agree on all earlier ones, and
documents that agree on all fields stay in order.
-/

namespace DocStore

/-! ## Sorting -/

def foldCase (s : String) : List Char := s.toList.map Char.toLower

/-- A negative number, or a word for it, sorts downwards. -/
def isDescending : Value → Bool
  | .int32 n => n < 0
  | .int64 n => n < 0
  | .double d => d.compare? ⟨0⟩ == some .lt
  | .string s => foldCase s == foldCase "desc" || foldCase s == foldCase "descending"
  | _ => false

/-- The order of two documents by a sort specification. -/
def sortOrder : List (String × Value) → Document → Document → Ordering
  | [], _, _ => .eq
  | (path, direction) :: rest, a, b =>
      let order := sortCompare (a.resolve? path) (b.resolve? path)
      (if isDescending direction then order.swap else order).then (sortOrder rest a b)

/-- Sorts what carries a document. -/
def sortBy {α : Type} (spec : Document) (document : α → Document) (items : List α) : List α :=
  items.mergeSort fun a b => sortOrder spec (document a) (document b) != .gt

def sortDocuments (spec : Document) (documents : List Document) : List Document :=
  sortBy spec id documents

/-! ## Paging -/

/-- A limit counts by its absolute value; zero is no limit. -/
def limitTo {α : Type} (limit : Option Int64) (items : List α) : List α :=
  match limit with
  | none => items
  | some n => if n = 0 then items else items.take n.toInt.natAbs

def skipFirst {α : Type} (skip : Option UInt64) (items : List α) : List α :=
  match skip with
  | none => items
  | some n => items.drop n.toNat

def FindOptions.apply (o : FindOptions) (documents : List Document) : List Document :=
  let sorted := match o.sort with
    | none => documents
    | some spec => sortDocuments spec documents
  limitTo o.limit (skipFirst o.skip sorted)

end DocStore
