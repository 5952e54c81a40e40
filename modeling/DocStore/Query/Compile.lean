import DocStore.Query

/-!
# Compiling filters

From a filter to the query it stands for (`Filter.compile`). Every fault of a
filter is found here, the first one in the order of its entries, so that a
query never fails on a document.

The keys `$and`, `$or` and `$nor` hold lists of filters. A key of digits alone
that holds a document holds a filter too. Any other key names a field, and the
constraint on it is an operator document if its keys start with a dollar sign.
-/

namespace DocStore

structure Settings where
  /-- Whether a string `/pattern/flags` in a list of alternatives is a
  pattern. -/
  listPatterns : Bool
  operators : Operators

def Settings.default : Settings := ⟨true, []⟩

variable [Pattern.Engine]

/-! ## Operands -/

def expectedOperand (operator what : String) : Error :=
  .invalidOperand operator ("expected " ++ what)

/-- Whether a document consists of operators. Its keys must all be operators
or all be plain. -/
def Document.operatorForm (d : Document) : Except Error Bool :=
  if d.hasOperatorKey then
    match d.keys.find? fun key => !Document.isOperatorKey key with
    | some plain => .error (.unsupportedOperator plain)
    | none => .ok true
  else .ok false

/-- A string that looks like a pattern but is none stands for itself. -/
def choiceOfString (settings : Settings) (s : String) : Choice :=
  if settings.listPatterns then
    match Pattern.delimited? s with
    | some (pattern, flags) =>
        match Pattern.compile pattern flags with
        | .ok p => .pattern p
        | .error _ => .value (.string s)
    | none => .value (.string s)
  else .value (.string s)

def compileChoice (settings : Settings) : Value → Except Error Choice
  | .regex pattern options => (Pattern.compile pattern options).map .pattern
  | .string s => .ok (choiceOfString settings s)
  | v => .ok (.value v)

def compileChoices (settings : Settings) (operator : String) : Value → Except Error (List Choice)
  | .array items => items.mapM (compileChoice settings)
  | _ => .error (expectedOperand operator "an array")

/-- A whole number within the range of a signed word. -/
def Value.wholeNumber? : Value → Option Int
  | .int32 n => some n.toInt
  | .int64 n => some n.toInt
  | .double d => d.integral?.map Double.clampInt64
  | _ => none

def compileSize (operand : Value) : Except Error Nat :=
  match operand.wholeNumber? with
  | some (.ofNat n) => .ok n
  | _ => .error (expectedOperand "$size" "a non-negative integer")

def kindOf? : Value → Option Kind
  | .string name => Kind.ofAlias? name
  | v => v.wholeNumber?.bind Kind.ofCode?

def compileKind (operand : Value) : Except Error Kind :=
  match kindOf? operand with
  | some k => .ok k
  | none => .error (.invalidOperand "$type" ("unknown type " ++ operand.text))

def compileKinds : Value → Except Error (List Kind)
  | .array items => items.mapM compileKind
  | v => (compileKind v).map ([·])

def extraOptions : Option Value → Except Error String
  | none => .ok ""
  | some (.string flags) => .ok flags
  | some _ => .error (expectedOperand "$options" "a string")

/-- A pattern with the options that stand beside it. -/
def compileRegex (operand : Value) (options : Option Value) : Except Error Pattern := do
  let extra ← extraOptions options
  match operand with
  | .string pattern => Pattern.compile pattern extra
  | .regex pattern options => Pattern.compile pattern (options ++ extra)
  | _ => throw (expectedOperand "$regex" "a string or a regular expression")

/-- An operator that is not built in. -/
def compileCustom (settings : Settings) (key : String) (operand : Value) :
    Except Error Operator :=
  match settings.operators.get? key with
  | some test => .ok (.custom test operand)
  | none => .error (.unsupportedOperator key)

/-- Operators whose operand is no constraint. The options of a pattern make no
operator of their own. -/
def compilePlainOperator (settings : Settings) (whole : Document) (key : String)
    (operand : Value) : Except Error (Option Operator) :=
  match key with
  | "$gt" => .ok (some (.compare .above false operand))
  | "$gte" => .ok (some (.compare .above true operand))
  | "$lt" => .ok (some (.compare .below false operand))
  | "$lte" => .ok (some (.compare .below true operand))
  | "$eq" => .ok (some (.equal operand))
  | "$ne" => .ok (some (.notEqual operand))
  | "$in" => (compileChoices settings key operand).map fun choices => some (.anyOf choices)
  | "$nin" => (compileChoices settings key operand).map fun choices => some (.noneOf choices)
  | "$exists" => .ok (some (.presence operand.isTruthy))
  | "$size" => (compileSize operand).map fun n => some (.size n)
  | "$type" => (compileKinds operand).map fun kinds => some (.kind kinds)
  | "$regex" => (compileRegex operand (whole.get? "$options")).map fun p => some (.regex p)
  | "$options" =>
      if whole.contains "$regex" then .ok none
      else .error (.invalidOperand key "$options needs a $regex")
  | "$all" =>
      match operand with
      | .array items => .ok (some (.all items))
      | _ => .error (expectedOperand key "an array")
  | "$instanceOf" =>
      match operand with
      | .string name => .ok (some (.instanceOf name))
      | _ => .error (expectedOperand key "a type name")
  | _ => (compileCustom settings key operand).map some

/-! ## Keys -/

/-- How the members of a logical list are joined. -/
inductive Junction where
  | all
  | any
  | none
  deriving DecidableEq, Repr

def Junction.clause : Junction → List Query → Clause
  | all, queries => .all queries
  | any, queries => .any queries
  | none, queries => .none queries

/-- What a key of a filter is about. -/
inductive KeyRole where
  | logical (junction : Junction)
  | isolated
  | unknownOperator
  | numeric
  | field
  deriving DecidableEq, Repr

/-- A nonempty key of digits alone. -/
def isNumericKey (key : String) : Bool :=
  !key.toList.isEmpty && key.toList.all isDecimalDigit

def keyRole (key : String) : KeyRole :=
  match key with
  | "$and" => .logical .all
  | "$or" => .logical .any
  | "$nor" => .logical .none
  | "$isolated" => .isolated
  | key =>
      if Document.isOperatorKey key then .unknownOperator
      else if isNumericKey key then .numeric
      else .field

/-- A key that makes a filter of what would otherwise be operators. -/
def isQueryKey (key : String) : Bool :=
  match keyRole key with
  | .logical _ => true
  | .isolated => true
  | _ => false

/-- The clause that puts a constraint on the field of that name. -/
def fieldClause (key : String) (c : Except Error Constraint) : Except Error Clause :=
  match keyRole key with
  | .logical _ => .error (.malformedLogicalFilter key)
  | .isolated => .ok .isolated
  | .unknownOperator => .error (.unsupportedOperator key)
  | .numeric => c.map (.field key)
  | .field => c.map (.field key)

/-! ## Values -/

/-- The constraint that a document puts on a field, given what its keys mean
as operators. -/
def documentConstraint (d : Document) (operators : Except Error (List Operator)) :
    Except Error Constraint := do
  if ← d.operatorForm then return .operators (← operators)
  else return .literal (.document d)

/-- The operator that applies a document to the elements of an array, given
what the document means as operators and as a filter. -/
def elementOperator (d : Document) (operators : Except Error (List Operator))
    (clauses : Except Error (List Clause)) : Except Error Operator := do
  if d.keys.any isQueryKey then return .elementQuery (← clauses)
  else if ← d.operatorForm then return .element (.operators (← operators))
  else return .elementQuery (← clauses)

/-- A negation of something other than a document. -/
def compileNegation : Value → Except Error Operator
  | .boolean b => .ok (.constant !b)
  | .regex pattern options =>
      (Pattern.compile pattern options).map fun p => .negation (.pattern p)
  | _ => .error (expectedOperand "$not" "an operator document, a regular expression or a boolean")

/-- The constraint that a value other than a document puts on a field. -/
def plainConstraint : Value → Except Error Constraint
  | .objectId id => .ok (.identifier id.hex)
  | .regex pattern options => (Pattern.compile pattern options).map .pattern
  | .string s =>
      if s = "$exists" then .ok (.operators [.presence true]) else .ok (.literal (.string s))
  | v => .ok (.literal v)

mutual

/-- The operators of the document `whole` from some field on. -/
def compileOperators (settings : Settings) (whole : Document) :
    List (String × Value) → Except Error (List Operator)
  | [] => .ok []
  | (key, operand) :: rest => do
      let op ← compileOperator settings whole key operand
      let ops ← compileOperators settings whole rest
      return op.toList ++ ops

def compileOperator (settings : Settings) (whole : Document) (key : String) :
    Value → Except Error (Option Operator)
  | .document d =>
      match key with
      | "$not" => do
          let c ← documentConstraint d (compileOperators settings d d)
          return some (.negation c)
      | "$elemMatch" => do
          let op ← elementOperator d (compileOperators settings d d) (compileClauses settings d)
          return some op
      | key => compilePlainOperator settings whole key (.document d)
  | operand =>
      match key with
      | "$not" => (compileNegation operand).map some
      | "$elemMatch" => .error (expectedOperand key "a document")
      | key => compilePlainOperator settings whole key operand

/-- The clauses of a filter document. -/
def compileClauses (settings : Settings) : List (String × Value) → Except Error (List Clause)
  | [] => .ok []
  | (key, v) :: rest => do
      let clause ← compileClause settings key v
      let clauses ← compileClauses settings rest
      return clause :: clauses

def compileClause (settings : Settings) (key : String) : Value → Except Error Clause
  | .array items =>
      match keyRole key with
      | .logical junction =>
          if items.isEmpty then .error (.malformedLogicalFilter key)
          else (compileMembers settings key items).map junction.clause
      | _ => fieldClause key (plainConstraint (.array items))
  | .document d =>
      match keyRole key with
      | .numeric => (compileClauses settings d).map .group
      | _ => fieldClause key (documentConstraint d (compileOperators settings d d))
  | v => fieldClause key (plainConstraint v)

/-- The members of a logical list, which are filter documents. -/
def compileMembers (settings : Settings) (key : String) :
    List Value → Except Error (List (List Clause))
  | [] => .ok []
  | .document d :: rest => do
      let q ← compileClauses settings d
      let queries ← compileMembers settings key rest
      return q :: queries
  | _ :: _ => .error (.malformedLogicalFilter key)

end

/-- The constraint that a value puts on a field. -/
def compileValue (settings : Settings) : Value → Except Error Constraint
  | .document d => documentConstraint d (compileOperators settings d d)
  | v => plainConstraint v

/-! ## Filters -/

def misplacedGroup : Error :=
  .unsupportedFilter "filter groups are only allowed under $and, $or and $nor"

mutual

def compileConditions (settings : Settings) :
    List (String × Condition) → Except Error (List Clause)
  | [] => .ok []
  | (key, c) :: rest => do
      let clause ← compileCondition settings key c
      let clauses ← compileConditions settings rest
      return clause :: clauses

def compileCondition (settings : Settings) (key : String) : Condition → Except Error Clause
  | .value v => compileClause settings key v
  | .predicate p => fieldClause key (.ok (.predicate p))
  | .matcher m => fieldClause key (.ok (.matcher m))
  | .filters members =>
      match keyRole key with
      | .logical junction =>
          if members.isEmpty then .error (.malformedLogicalFilter key)
          else (compileGroup settings members).map junction.clause
      | .numeric =>
          if members.isEmpty then .error (.malformedLogicalFilter key)
          else (compileGroup settings members).map fun queries => .group (queries.map .group)
      | _ => fieldClause key (.error misplacedGroup)

def compileGroup (settings : Settings) :
    List (List (String × Condition)) → Except Error (List (List Clause))
  | [] => .ok []
  | f :: rest => do
      let q ← compileConditions settings f
      let queries ← compileGroup settings rest
      return q :: queries

end

/-- The constraint for one condition on its own. -/
def Condition.compile (settings : Settings) : Condition → Except Error Constraint
  | .value v => compileValue settings v
  | .predicate p => .ok (.predicate p)
  | .matcher m => .ok (.matcher m)
  | .filters _ => .error misplacedGroup

def Filter.compile (settings : Settings) (f : Filter) : Except Error Query :=
  compileConditions settings f

end DocStore
