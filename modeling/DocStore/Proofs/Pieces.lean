import DocStore.Proofs.Meaning

/-!
# The pieces of a filter

What a filter is built of, at every depth (`Filter.pieces`): the values that
are put on fields, and the entries of operator documents. A piece is where the
compiler would look for one. What stands inside a literal, under `$isolated`,
or in an operand that is neither a constraint nor a filter is none.

Statements about filters in which something does not occur speak of pieces.
Whether a filter uses any tests is asked of its conditions alone
(`Filter.isTestFree`).
-/

namespace DocStore

inductive Piece where
  | constraint (v : Value)
  | operator (key : String) (operand : Value)

namespace Piece

/-- The pieces of an entry, given those of the filters that it holds and those
of the constraint that it would put on a field. -/
def ofEntry (key : String) (isGroup : Bool) (subfilters constraint : List Piece) : List Piece :=
  match keyRole key with
  | .logical _ => subfilters
  | .isolated => []
  | .numeric => if isGroup then subfilters else constraint
  | .unknownOperator => constraint
  | .field => constraint

mutual

def ofConstraint : Value → List Piece
  | .document d =>
      .constraint (.document d) :: if Document.hasOperatorKey d then ofOperators d else []
  | v => [.constraint v]

def ofOperators : List (String × Value) → List Piece
  | [] => []
  | (key, operand) :: rest =>
      .operator key operand ::
        ((if key = "$not" then ofConstraint operand
          else if key = "$elemMatch" then ofElement operand
          else [])
        ++ ofOperators rest)

/-- A document that is applied to items: a filter, or operators. -/
def ofElement : Value → List Piece
  | .document d => if Meaning.isSubfilter d then ofEntries d else ofOperators d
  | _ => []

def ofEntries : List (String × Value) → List Piece
  | [] => []
  | (key, v) :: rest =>
      ofEntry key v.isDocument (ofSubfilters v) (ofConstraint v) ++ ofEntries rest

/-- The pieces of the filters in a value: of those in a list, or of the one
that it is. -/
def ofSubfilters : Value → List Piece
  | .array items => ofMembers items
  | .document f => ofEntries f
  | _ => []

def ofMembers : List Value → List Piece
  | [] => []
  | .document f :: rest => ofEntries f ++ ofMembers rest
  | _ :: rest => ofMembers rest

end

/-! ## Filters -/

def ofCondition : Condition → List Piece
  | .value v => ofConstraint v
  | _ => []

mutual

def ofConditions : List (String × Condition) → List Piece
  | [] => []
  | (key, c) :: rest =>
      ofEntry key (Meaning.isGroup c) (ofGroups c) (ofCondition c) ++ ofConditions rest

/-- The pieces of the filters in a condition. -/
def ofGroups : Condition → List Piece
  | .value v => ofSubfilters v
  | .filters fs => ofFilters fs
  | _ => []

def ofFilters : List (List (String × Condition)) → List Piece
  | [] => []
  | f :: rest => ofConditions f ++ ofFilters rest

end

end Piece

def Filter.pieces (f : Filter) : List Piece := Piece.ofConditions f

/-! ## Tests -/

mutual

/-- No test of the caller's is part of the condition. -/
def Condition.isTestFree : Condition → Bool
  | .value _ => true
  | .predicate _ => false
  | .matcher _ => false
  | .filters members => membersTestFree members

def membersTestFree : List (List (String × Condition)) → Bool
  | [] => true
  | f :: rest => conditionsTestFree f && membersTestFree rest

def conditionsTestFree : List (String × Condition) → Bool
  | [] => true
  | (_, c) :: rest => c.isTestFree && conditionsTestFree rest

end

/-- There is no predicate and no matcher in the filter, at any depth. -/
def Filter.isTestFree (f : Filter) : Bool := conditionsTestFree f

end DocStore
