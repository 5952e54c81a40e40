import DocStore.Error
import DocStore.Value.Equality
import DocStore.Value.Text

/-!
# Filters

A filter is a list of named conditions in order; writing a name again replaces
its condition where it stands. A condition is a value, a test on the field, or
a group of filters. Tests are functions and cannot be compared, so each has a
token that says which test it is: copies of one test share the token.

A filter without tests has a document form (`Filter.toDocument`).
-/

namespace DocStore

/-! ## Tests -/

/-- A condition on a field that may be missing. -/
structure Predicate where
  token : Nat
  holds : Option Value → Bool

/-- A condition that can describe itself. -/
structure Matcher where
  token : Nat
  description : String
  accepts : Option Value → Bool

namespace Matcher

/-- Accepts what is loosely equal to a value. -/
def equalTo (token : Nat) (expected : Value) : Matcher where
  token
  description := "is equal to " ++ expected.text
  accepts v := v.any (·.looseEq expected)

/-- Accepts anything, and a missing field too. -/
def anything (token : Nat) : Matcher where
  token
  description := "is anything"
  accepts _ := true

end Matcher

/-! ## Filters -/

inductive Condition where
  | value (v : Value)
  | predicate (p : Predicate)
  | matcher (m : Matcher)
  | filters (members : List (List (String × Condition)))

abbrev Filter := List (String × Condition)

namespace Filter

def empty : Filter := []

def get? (f : Filter) (key : String) : Option Condition := f.lookup key

/-- Writes a condition where it stands, or at the end when it is new. -/
def insert : Filter → String → Condition → Filter
  | [], key, c => [(key, c)]
  | (k, d) :: rest, key, c =>
      if k = key then (k, c) :: rest else (k, d) :: insert rest key c

def ofConditions (conditions : List (String × Condition)) : Filter :=
  conditions.foldl (fun f condition => insert f condition.1 condition.2) []

def ofDocument (d : Document) : Filter := d.map fun (key, v) => (key, .value v)

end Filter

/-! ## Equality -/

mutual

def Condition.same : Condition → Condition → Bool
  | .value a, .value b => a.same b
  | .predicate a, .predicate b => a.token == b.token
  | .matcher a, .matcher b => a.token == b.token
  | .filters a, .filters b => sameFilters a b
  | _, _ => false

def sameFilters : List (List (String × Condition)) → List (List (String × Condition)) → Bool
  | [], [] => true
  | f :: fs, g :: gs => sameConditions f g && sameFilters fs gs
  | _, _ => false

/-- The same names in the same order, with the same conditions. -/
def sameConditions : List (String × Condition) → List (String × Condition) → Bool
  | [], [] => true
  | (k, a) :: f, (l, b) :: g => k == l && a.same b && sameConditions f g
  | _, _ => false

end

def Filter.same (f g : Filter) : Bool := sameConditions f g

/-! ## The document form -/

def noDocumentForm (key : String) : Error :=
  .unsupportedFilter ("field '" ++ key ++ "' uses a predicate, which has no document form")

mutual

/-- The value form of the condition under a name. -/
def Condition.toValue (key : String) : Condition → Except Error Value
  | .value v => .ok v
  | .predicate _ => .error (noDocumentForm key)
  | .matcher _ => .error (noDocumentForm key)
  | .filters members => (memberDocuments members).map .array

def memberDocuments : List (List (String × Condition)) → Except Error (List Value)
  | [] => .ok []
  | f :: rest => do
      let fields ← documentFields f
      let more ← memberDocuments rest
      return .document fields :: more

def documentFields : List (String × Condition) → Except Error (List (String × Value))
  | [] => .ok []
  | (key, c) :: rest => do
      let v ← c.toValue key
      let more ← documentFields rest
      return (key, v) :: more

end

/-- The document that stands for a filter without tests. -/
def Filter.toDocument (f : Filter) : Except Error Document := documentFields f

end DocStore
