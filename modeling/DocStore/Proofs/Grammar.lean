import DocStore.Proofs.Meaning

/-!
# Which filters are well formed

The grammar of filters, by recursion on the filter itself
(`Filter.isGrammatical`). It says nothing about queries: a filter is looked at
entry by entry, an entry by its key, an operator by its operand. The settings
come in only through the names of the operators that were added.

Three keys hold lists of filters, one holds anything, and no other key with a
dollar sign may stand where a field is expected. In the place of a value, a
document with such a key consists of operators, all of which must be known and
have an operand that they can take.
-/

namespace DocStore

variable [Pattern.Engine]

namespace Grammar

/-! ## Operands -/

/-- The regular expression can be read under its options. -/
def isExpression (pattern options : String) : Bool := (Pattern.compile pattern options).isOk

/-- Among alternatives only a regular expression can be wrong; a string that
looks like one may also stand for itself. -/
def isAlternative : Value → Bool
  | .regex pattern options => isExpression pattern options
  | _ => true

/-- The whole number that a value is, of whatever kind. -/
def whole? : Value → Option Int
  | .int32 n => some n.toInt
  | .int64 n => some n.toInt
  | .double d => d.integral?
  | _ => none

def isKindCode (code : Int) : Bool :=
  (1 ≤ code && code ≤ 19) || [-1, 127, 128].contains code

def kindNames : List String :=
  ["double", "string", "object", "array", "binData", "undefined", "objectId", "bool", "date",
    "null", "regex", "dbPointer", "javascript", "symbol", "javascriptWithScope", "int", "long",
    "timestamp", "decimal", "minKey", "maxKey", "number"]

def isKind : Value → Bool
  | .string name => kindNames.contains name
  | v => (whole? v).any isKindCode

/-- An expression together with the options that stand beside it. -/
def isExpressionBeside (whole : Document) (operand : Value) : Bool :=
  (match whole.get? "$options" with
    | none => true
    | some (.string _) => true
    | some _ => false)
  && match operand with
    | .string pattern => isExpression pattern (Meaning.optionsBeside whole)
    | .regex pattern options => isExpression pattern (options ++ Meaning.optionsBeside whole)
    | _ => false

/-- An operator of the document `whole` whose operand is neither a constraint
nor a filter. -/
def plainOperator (settings : Settings) (whole : Document) (key : String) (operand : Value) :
    Bool :=
  match key with
  | "$gt" | "$gte" | "$lt" | "$lte" | "$eq" | "$ne" | "$exists" => true
  | "$in" | "$nin" =>
      match operand with
      | .array items => items.all isAlternative
      | _ => false
  | "$size" => (whole? operand).any (0 ≤ ·)
  | "$type" =>
      match operand with
      | .array items => items.all isKind
      | v => isKind v
  | "$regex" => isExpressionBeside whole operand
  | "$options" => whole.contains "$regex"
  | "$all" => operand.isArray
  | "$instanceOf" =>
      match operand with
      | .string _ => true
      | _ => false
  | key => (settings.operators.get? key).isSome

/-- What can be negated, provided that it is a constraint. -/
def isNegatable : Value → Bool
  | .boolean _ => true
  | .regex _ _ => true
  | .document _ => true
  | _ => false

/-! ## Entries -/

/-- An entry of a filter, given whether it holds a list of filters, whether it
holds a filter or a group of them, if it does, and whether it holds a
constraint. -/
def entry (key : String) (list : Bool) (group : Option Bool) (constraint : Bool) : Bool :=
  match key with
  | "$and" | "$or" | "$nor" => list
  | "$isolated" => true
  | key =>
      !Document.isOperatorKey key
        && if isNumericKey key then group.getD constraint else constraint

mutual

/-- What a value may be that stands for a constraint. -/
def constraint (settings : Settings) : Value → Bool
  | .regex pattern options => isExpression pattern options
  | .document d =>
      if Document.hasOperatorKey d then
        (Document.keys d).all Document.isOperatorKey && operators settings d d
      else true
  | _ => true

def operators (settings : Settings) (whole : Document) : List (String × Value) → Bool
  | [] => true
  | (key, operand) :: rest =>
      (if key = "$not" then isNegatable operand && constraint settings operand
        else if key = "$elemMatch" then element settings operand
        else plainOperator settings whole key operand)
      && operators settings whole rest

/-- A document that is applied to items: a filter, or operators. -/
def element (settings : Settings) : Value → Bool
  | .document d =>
      if Meaning.isSubfilter d then entries settings d
      else (Document.keys d).all Document.isOperatorKey && operators settings d d
  | _ => false

def entries (settings : Settings) : List (String × Value) → Bool
  | [] => true
  | (key, v) :: rest =>
      entry key (list settings v) (group? settings v) (constraint settings v)
        && entries settings rest

/-- A list of filters, which may not be empty. -/
def list (settings : Settings) : Value → Bool
  | .array items => !items.isEmpty && members settings items
  | _ => false

def members (settings : Settings) : List Value → Bool
  | [] => true
  | .document f :: rest => entries settings f && members settings rest
  | _ :: _ => false

/-- A document, taken for a filter. -/
def group? (settings : Settings) : Value → Option Bool
  | .document f => some (entries settings f)
  | _ => none

end

/-! ## Filters -/

/-- Tests are constraints, and a group of filters is none. -/
def condition (settings : Settings) : Condition → Bool
  | .value v => constraint settings v
  | .predicate _ => true
  | .matcher _ => true
  | .filters _ => false

mutual

def conditions (settings : Settings) : List (String × Condition) → Bool
  | [] => true
  | (key, c) :: rest =>
      entry key (conditionList settings c) (conditionGroup? settings c) (condition settings c)
        && conditions settings rest

def conditionList (settings : Settings) : Condition → Bool
  | .value v => list settings v
  | .filters fs => !fs.isEmpty && filters settings fs
  | _ => false

def conditionGroup? (settings : Settings) : Condition → Option Bool
  | .value v => group? settings v
  | .filters fs => some (!fs.isEmpty && filters settings fs)
  | _ => none

def filters (settings : Settings) : List (List (String × Condition)) → Bool
  | [] => true
  | f :: rest => conditions settings f && filters settings rest

end

end Grammar

/-- The filter is well formed. -/
def Filter.isGrammatical (settings : Settings) (f : Filter) : Bool :=
  Grammar.conditions settings f

end DocStore
