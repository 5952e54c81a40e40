import DocStore.Filter.Dump

/-!
# Custom operators

Operators that a caller adds to the built-in ones, by name. Such an operator is
a test on the field, which may be missing, and the operand in the filter.
-/

namespace DocStore

abbrev CustomTest := Option Value → Value → Bool

abbrev Operators := List (String × CustomTest)

namespace Operators

def get? (ops : Operators) (name : String) : Option CustomTest := ops.lookup name

/-- Adds an operator; one of the same name is replaced. -/
def insert : Operators → String → CustomTest → Operators
  | [], name, test => [(name, test)]
  | (n, t) :: rest, name, test =>
      if n = name then (n, test) :: rest else (n, t) :: insert rest name test

/-- Adds all operators of `more`. -/
def extend (ops more : Operators) : Operators :=
  more.foldl (fun ops op => insert ops op.1 op.2) ops

def ofList (ops : List (String × CustomTest)) : Operators := extend [] ops

def dump (ops : Operators) : String :=
  listDump (((ops.map (·.1)).mergeSort fun a b => a ≤ b).map escaped)

end Operators

end DocStore
