import DocStore.Query.Compile

/-!
# What a filter says

The truth of a filter about a document, read off the filter itself
(`Filter.meaning`). No form stands in between: a key says how its entry is to
be taken, a value what it asks of the field, and a document of operators is
read key by key, where the first `$exists` has the last word.

Of a filter that does not compile the reading is of no account; such a part
counts as false where nothing else suggests itself. An empty document has no
operator among its keys and stands for itself.
-/

namespace DocStore

variable [Pattern.Engine]

namespace Meaning

/-! ## Values -/

/-- The texts in which a regular expression is looked for. -/
def texts : Value → List String
  | .string s => [s]
  | .symbol s => [s]
  | .array items => items.filterMap fun
      | .string s => some s
      | _ => none
  | _ => []

def expression (pattern options : String) (v : Value) : Bool :=
  match Pattern.compile pattern options with
  | .ok p => (texts v).any p.occursIn
  | .error _ => false

/-- Loose equality, plain bytes that spell a string, or a scalar among the
items. -/
def literal (expected v : Value) : Bool :=
  v.looseEq expected
    || (match v, expected with
      | .binary subtype bytes, .string s => subtype == 0 && bytes == s.toUTF8.toList
      | _, _ => false)
    || match v with
      | .array items =>
          !(expected.isArray || expected.isDocument) && items.any fun item => item.looseEq expected
      | _ => false

/-- What an object identifier asks for: itself, or the string that spells
it. -/
def identifier (id : ObjectId) : Option Value → Bool
  | some (.objectId other) => other == id
  | some (.string s) => s == id.hex
  | _ => false

/-! ## Operators -/

/-- The items of an array; any other value stands alone. -/
def listed : Value → List Value
  | .array items => items
  | v => [v]

/-- Unless the operand is an array too, the items of an array are compared. -/
def ordered (admitted : List Ordering) (operand v : Value) : Bool :=
  (if operand.isArray then [v] else listed v).any fun x =>
    (x.compare? operand).any admitted.contains

/-- A member of a list of alternatives accepts the value. -/
def alternative (settings : Settings) (v : Value) : Value → Bool
  | .regex pattern options => expression pattern options v
  | .string s =>
      match if settings.listPatterns then Pattern.delimited? s else none with
      | some (pattern, flags) =>
          match Pattern.compile pattern flags with
          | .ok _ => expression pattern flags v
          | .error _ => v.looseEq (.string s)
      | none => v.looseEq (.string s)
  | expected => v.looseEq expected

/-- The value or one of its items is accepted by one of the alternatives. -/
def isIn (settings : Settings) (operand v : Value) : Bool :=
  match operand with
  | .array alternatives =>
      let candidates := match v with
        | .array items => v :: items
        | _ => [v]
      candidates.any fun x => alternatives.any (alternative settings x)
  | _ => false

/-- Every operand is strictly equal to some item. A single operand that is
itself an array may also be the whole set of items. -/
def containsEach (operand v : Value) : Bool :=
  let among (items wanted : List Value) := wanted.all fun x => items.any fun item => item.strictEq x
  match operand, v with
  | .array [], _ => false
  | .array [.array set], .array items =>
      among items [.array set] || (set.length == items.length && among items set)
  | .array operands, .array items => among items operands
  | _, _ => false

def hasSize (operand : Value) : Option Value → Bool
  | some (.array items) => operand.wholeNumber? == some (Int.ofNat items.length)
  | _ => false

/-- The value is of one of the kinds. -/
def hasKind (operand : Value) (v : Option Value) : Bool :=
  v.any fun v => (listed operand).any fun kind => (kindOf? kind).any (·.includes v)

/-- The options that stand beside an expression. -/
def optionsBeside (whole : Document) : String :=
  match whole.get? "$options" with
  | some (.string flags) => flags
  | _ => ""

def expressionBeside (beside : String) (operand v : Value) : Bool :=
  match operand with
  | .string pattern => expression pattern beside v
  | .regex pattern options => expression pattern (options ++ beside) v
  | _ => false

/-- An operator whose operand is neither a constraint nor a filter. All but the
last four cases take a missing field for a null. -/
def plainOperator (settings : Settings) (beside : String) (key : String) (operand : Value)
    (v : Option Value) : Bool :=
  let present := v.getD .null
  match key with
  | "$gt" => ordered [.gt] operand present
  | "$gte" => ordered [.gt, .eq] operand present
  | "$lt" => ordered [.lt] operand present
  | "$lte" => ordered [.lt, .eq] operand present
  | "$eq" => present.strictEq operand
  | "$ne" => !present.looseEq operand
  | "$in" => isIn settings operand present
  | "$nin" => !isIn settings operand present
  | "$all" => containsEach operand present
  | "$regex" => expressionBeside beside operand present
  | "$options" => true
  | "$size" => hasSize operand v
  | "$type" => hasKind operand v
  | "$instanceOf" =>
      match operand with
      | .string name => v.any fun v => v.kindName == name
      | _ => false
  | key =>
      match settings.operators.get? key with
      | some test => test v operand
      | none => false

/-- A negated boolean, or a negated constraint. -/
def negation (truth : Bool) : Value → Bool
  | .boolean b => !b
  | _ => !truth

/-- A document that is applied to items as a filter and not as operators. -/
def isSubfilter (d : Document) : Bool :=
  d.keys.any (["$and", "$or", "$nor", "$isolated"].contains ·) || !d.hasOperatorKey

/-! ## Entries -/

/-- An entry of a filter, given the truth of the filters that it holds and of
the constraint that it puts on a field. -/
def entry (key : String) (isGroup : Bool) (subfilters : List Bool) (constraint : Bool) : Bool :=
  match key with
  | "$and" => subfilters.all id
  | "$or" => subfilters.any id
  | "$nor" => !subfilters.any id
  | "$isolated" => true
  | key => if isNumericKey key && isGroup then subfilters.all id else constraint

mutual

/-- What a value asks of a field. -/
def constraint (settings : Settings) (v : Option Value) : Value → Bool
  | .objectId id => identifier id v
  | .regex pattern options => expression pattern options (v.getD .null)
  | .string s => if s = "$exists" then v.isSome else literal (.string s) (v.getD .null)
  | .document d =>
      if Document.hasOperatorKey d then operators settings (optionsBeside d) v d
      else literal (.document d) (v.getD .null)
  | expected => literal expected (v.getD .null)

def operators (settings : Settings) (beside : String) (v : Option Value) :
    List (String × Value) → Bool
  | [] => true
  | (key, operand) :: rest =>
      if key = "$exists" then v.isSome == operand.isTruthy
      else
        (if key = "$not" then negation (constraint settings v operand) operand
          else if key = "$elemMatch" then element settings v operand
          else plainOperator settings beside key operand v)
        && operators settings beside v rest

/-- Some item of an array satisfies the operand; a field that is no array is
taken for the item. -/
def element (settings : Settings) (v : Option Value) : Value → Bool
  | .document d =>
      if isSubfilter d then
        match v with
        | some (.array items) => items.any fun
            | .document item => entries settings item d
            | _ => false
        | some (.document item) => entries settings item d
        | _ => false
      else
        match v with
        | some (.array items) => items.any fun item =>
            operators settings (optionsBeside d) (some item) d
        | v => operators settings (optionsBeside d) v d
  | _ => false

/-- The entries of a filter document, all of them. -/
def entries (settings : Settings) (d : Document) : List (String × Value) → Bool
  | [] => true
  | (key, v) :: rest =>
      entry key v.isDocument (subfilters settings d v) (constraint settings (d.resolve? key) v)
        && entries settings d rest

/-- The truth of the filters in a value: of those in a list, or of the one that
it is. -/
def subfilters (settings : Settings) (d : Document) : Value → List Bool
  | .array items => members settings d items
  | .document f => [entries settings d f]
  | _ => []

def members (settings : Settings) (d : Document) : List Value → List Bool
  | [] => []
  | .document f :: rest => entries settings d f :: members settings d rest
  | _ :: rest => members settings d rest

end

/-! ## Filters -/

/-- Tests receive the field as it is, present or not. -/
def condition (settings : Settings) (v : Option Value) : Condition → Bool
  | .value expected => constraint settings v expected
  | .predicate p => p.holds v
  | .matcher m => m.accepts v
  | .filters _ => false

def isGroup : Condition → Bool
  | .value v => v.isDocument
  | .filters _ => true
  | _ => false

mutual

def conditions (settings : Settings) (d : Document) : List (String × Condition) → Bool
  | [] => true
  | (key, c) :: rest =>
      entry key (isGroup c) (groups settings d c) (condition settings (d.resolve? key) c)
        && conditions settings d rest

/-- The truth of the filters in a condition. -/
def groups (settings : Settings) (d : Document) : Condition → List Bool
  | .value v => subfilters settings d v
  | .filters fs => filters settings d fs
  | _ => []

def filters (settings : Settings) (d : Document) :
    List (List (String × Condition)) → List Bool
  | [] => []
  | f :: rest => conditions settings d f :: filters settings d rest

end

end Meaning

/-- The filter is true of the document. -/
def Filter.meaning (settings : Settings) (f : Filter) (d : Document) : Bool :=
  Meaning.conditions settings d f

end DocStore
