import DocStore.Path
import DocStore.Value.Equality

/-!
# Updates

An update is either a list of operators, each with the fields that it applies
to, or a replacement: a document without operators, which can only be inserted
as it is. Operators apply in the order in which they are written, and so do
their fields (`Update.apply`). A document that comes out the same, the order of
its keys apart, keeps the order that it had.
-/

namespace DocStore

inductive UpdateOperator where
  | set
  | unset
  | increment
  | push
  | setOnInsert
  deriving DecidableEq, Repr

namespace UpdateOperator

def key : UpdateOperator → String
  | set => "$set"
  | unset => "$unset"
  | increment => "$inc"
  | push => "$push"
  | setOnInsert => "$setOnInsert"

def ofKey? : String → Option UpdateOperator
  | "$set" => some set
  | "$unset" => some unset
  | "$inc" => some increment
  | "$push" => some push
  | "$setOnInsert" => some setOnInsert
  | _ => none

theorem ofKey?_key (op : UpdateOperator) : ofKey? op.key = some op := by cases op <;> rfl

end UpdateOperator

/-! ## Fields -/

/-- An integer of 64 bits, if it fits. -/
def wideInteger? (n : Int) : Option Value :=
  if (Int64.ofInt n).toInt = n then some (.int64 (Int64.ofInt n)) else none

/-- The sum of two integers: 32 bits wide if both are and it fits, else 64
bits. Values that are no integers have no sum (`none`), and the inner `none`
is a sum that does not fit in 64 bits. -/
def addIntegers : Value → Value → Option (Option Value)
  | .int32 a, .int32 b =>
      let sum := a.toInt + b.toInt
      if (Int32.ofInt sum).toInt = sum then some (some (.int32 (Int32.ofInt sum)))
      else some (some (.int64 (Int64.ofInt sum)))
  | .int32 a, .int64 b => some (wideInteger? (a.toInt + b.toInt))
  | .int64 a, .int32 b => some (wideInteger? (a.toInt + b.toInt))
  | .int64 a, .int64 b => some (wideInteger? (a.toInt + b.toInt))
  | _, _ => none

namespace Document

/-- Adds to an integer field; a missing field counts as zero. A field or an
amount that is no integer is left alone. -/
def increment (d : Document) (path : String) (amount : Value) : Except Error Document := do
  let d ← if (d.resolve? path).isSome then pure d else d.set path (.int32 0)
  match d.resolve? path with
  | none => return d
  | some current =>
      match addIntegers current amount with
      | none => return d
      | some none => throw (.invalidUpdate ("increment of '" ++ path ++ "' overflows"))
      | some (some sum) => return (d.replace? path sum).getD d

/-- Adds an item to an array field; any other field is left alone. -/
def push (d : Document) (path : String) (item : Value) : Document :=
  match d.resolve? path with
  | some (.array items) => (d.replace? path (.array (items ++ [item]))).getD d
  | _ => d

def unset (d : Document) (path : String) : Document :=
  match d.remove? path with
  | some (_, rest) => rest
  | none => d

end Document

def UpdateOperator.applyField (op : UpdateOperator) (d : Document) (path : String)
    (operand : Value) : Except Error Document :=
  match op with
  | .set => d.set path operand
  | .setOnInsert => d.set path operand
  | .unset => .ok (d.unset path)
  | .increment => d.increment path operand
  | .push => .ok (d.push path operand)

/-- Applies an operator to one field after the other. -/
def UpdateOperator.apply (op : UpdateOperator) (d : Document) :
    List (String × Value) → Except Error Document
  | [] => .ok d
  | (path, operand) :: rest => do
      let d ← op.applyField d path operand
      op.apply d rest

/-! ## Updates -/

inductive Update where
  | replacement (d : Document)
  | operators (ops : List (UpdateOperator × Document))

namespace Update

/-- The operators of a document with their fields; other keys are passed
over. -/
def parseOperators : List (String × Value) → Except Error (List (UpdateOperator × Document))
  | [] => .ok []
  | (key, operand) :: rest =>
      match UpdateOperator.ofKey? key, operand with
      | none, _ => parseOperators rest
      | some op, .document fields => (parseOperators rest).map ((op, fields) :: ·)
      | some op, _ => .error (.invalidOperand op.key "expected a document of field paths")

/-- A document with an operator among its keys is a list of operators; then all
its keys have to be known operators. -/
def parse (d : Document) : Except Error Update :=
  if !d.hasOperatorKey then .ok (.replacement d)
  else
    let unsupported := d.keys.filter fun key => (UpdateOperator.ofKey? key).isNone
    if unsupported.isEmpty then (parseOperators d).map .operators
    else .error (.unsupportedUpdateOperators unsupported)

def applyOperators (d : Document) : List (UpdateOperator × Document) → Except Error Document
  | [] => .ok d
  | (op, fields) :: rest => do
      let d ← op.apply d fields
      applyOperators d rest

/-- The updated document, and whether it differs from the old one. -/
def apply (u : Update) (d : Document) : Except Error (Document × Bool) :=
  match u with
  | .replacement r => .error (.unsupportedUpdateOperators r.keys)
  | .operators ops => do
      let updated ← applyOperators d ops
      if updated.same d then return (d, false) else return (updated, true)

end Update

end DocStore
