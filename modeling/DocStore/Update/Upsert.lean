import DocStore.Filter
import DocStore.Update

/-!
# Upserts

The document that an update inserts when its filter matches nothing
(`Update.upsertDocument`): what the filter says that fields are equal to, then
what the update sets, then what its remaining operators do.
-/

namespace DocStore

/-- The value that a condition pins its field to, if it is a plain equality. -/
def pinnedValue? (key : String) (v : Value) : Option Value :=
  if Document.isOperatorKey key || (key.toList.all isDecimalDigit && v.isDocument) then none
  else
    match v with
    | .document d =>
        if !Document.hasOperatorKey d then some v
        else
          match d with
          | [(operator, operand)] => if operator = "$eq" then some operand else none
          | _ => none
    | .string s => if s = "$exists" then none else some v
    | .regex _ _ => none
    | _ => some v

def Condition.pinnedValue? (key : String) : Condition → Option Value
  | .value v => DocStore.pinnedValue? key v
  | _ => none

/-- The fields that a filter pins, in order. -/
def Filter.pinnedFields (f : Filter) : List (String × Value) :=
  f.filterMap fun (key, c) => (c.pinnedValue? key).map (key, ·)

namespace Update

/-- The fields of an operator. -/
def fieldsOf (ops : List (UpdateOperator × Document)) (wanted : UpdateOperator) :
    List (String × Value) :=
  (ops.filter (·.1 == wanted)).flatMap (·.2)

/-- The fields that would be set twice on insertion. -/
def conflicts (ops : List (UpdateOperator × Document)) : List String :=
  let onInsert := (fieldsOf ops .setOnInsert).map (·.1)
  ((fieldsOf ops .set).map (·.1)).filter onInsert.contains

def upsertDocument (u : Update) (f : Filter) : Except Error Document :=
  match u with
  | .replacement d => .ok d
  | .operators ops =>
      if !(conflicts ops).isEmpty then .error (.conflictingUpsertFields (conflicts ops))
      else do
        let d ← UpdateOperator.set.apply [] f.pinnedFields
        let d ← UpdateOperator.set.apply d (fieldsOf ops .set)
        let d ← UpdateOperator.set.apply d (fieldsOf ops .setOnInsert)
        applyOperators d (ops.filter fun op => op.1 != .set && op.1 != .setOnInsert)

end Update

end DocStore
