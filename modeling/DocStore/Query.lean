import DocStore.Filter
import DocStore.Kind
import DocStore.Operators
import DocStore.Path
import DocStore.Pattern

/-!
# Queries

The form of a filter that documents are tested against. A query is a list of
clauses that all have to hold; a clause about a field carries a constraint, and
an operator document becomes a list of operators that all have to hold.

Operators see a missing field as null, except those that ask whether the field
is there. A test for presence decides an operator list by itself: what follows
it is not looked at.
-/

namespace DocStore

/-- The side on which a compared value has to lie. -/
inductive Side where
  | above
  | below
  deriving DecidableEq, Repr

/-- What a member of a list of alternatives asks for. -/
inductive Choice where
  | pattern (p : Pattern)
  | value (v : Value)

mutual

inductive Constraint where
  | predicate (p : Predicate)
  | matcher (m : Matcher)
  /-- An object identifier, or a string that spells it. -/
  | identifier (hex : String)
  | pattern (p : Pattern)
  | operators (ops : List Operator)
  | literal (v : Value)

inductive Operator where
  | compare (side : Side) (inclusive : Bool) (operand : Value)
  | equal (operand : Value)
  | notEqual (operand : Value)
  | anyOf (choices : List Choice)
  | noneOf (choices : List Choice)
  | element (c : Constraint)
  | elementQuery (clauses : List Clause)
  | presence (expected : Bool)
  | size (n : Nat)
  | kind (kinds : List Kind)
  | negation (c : Constraint)
  | constant (b : Bool)
  | regex (p : Pattern)
  | all (operands : List Value)
  | instanceOf (name : String)
  | custom (test : CustomTest) (operand : Value)

inductive Clause where
  | field (path : String) (c : Constraint)
  | all (queries : List (List Clause))
  | any (queries : List (List Clause))
  | none (queries : List (List Clause))
  | group (clauses : List Clause)
  /-- A hint that says nothing about the document. -/
  | isolated

end

abbrev Query := List Clause

/-! ## Tests on values -/

namespace Side

def admits (side : Side) (inclusive : Bool) : Ordering → Bool
  | .eq => inclusive
  | .gt => side == .above
  | .lt => side == .below

end Side

/-- Incomparable values satisfy no comparison. -/
def comparesTo (side : Side) (inclusive : Bool) (operand v : Value) : Bool :=
  (v.compare? operand).any (side.admits inclusive)

/-- An array is compared item by item, unless with another array. -/
def compareHolds (side : Side) (inclusive : Bool) (operand v : Value) : Bool :=
  match v with
  | .array items =>
      if operand.isArray then comparesTo side inclusive operand v
      else items.any (comparesTo side inclusive operand)
  | v => comparesTo side inclusive operand v

/-- A text in which the pattern occurs, or an array with such a string. -/
def Pattern.holds (p : Pattern) : Value → Bool
  | .string s => p.occursIn s
  | .symbol s => p.occursIn s
  | .array items => items.any fun
      | .string s => p.occursIn s
      | _ => false
  | _ => false

def Choice.holds (v : Value) : Choice → Bool
  | pattern p => p.holds v
  | value expected => v.looseEq expected

/-- Some choice holds for the value, or for an item of it. -/
def choiceHolds (choices : List Choice) (v : Value) : Bool :=
  choices.any (Choice.holds v)
    || match v with
      | .array items => items.any fun item => choices.any (Choice.holds item)
      | _ => false

def containsAll (items operands : List Value) : Bool :=
  operands.all fun operand => items.any fun item => item.strictEq operand

/-- The items contain every operand; or the one operand is itself an array,
which has the same length and items. -/
def allHolds (operands : List Value) (v : Value) : Bool :=
  match v, operands with
  | .array items, [.array set] =>
      containsAll items [.array set] || (set.length == items.length && containsAll items set)
  | .array items, operands => !operands.isEmpty && containsAll items operands
  | _, _ => false

/-- Plain bytes that are the text of a string. -/
def bytesSpell (subtype : UInt8) (bytes : List UInt8) (s : String) : Bool :=
  subtype == 0 && bytes == s.toUTF8.toList

/-- Loose equality with the value or, for a scalar literal, with an item of
it. -/
def literalHolds (literal v : Value) : Bool :=
  v.looseEq literal
    || match v, literal with
      | .binary subtype bytes, .string s => bytesSpell subtype bytes s
      | .array items, scalar =>
          !scalar.isArray && !scalar.isDocument && items.any (·.looseEq scalar)
      | _, _ => false

def identifierHolds (hex : String) : Option Value → Bool
  | some (.objectId id) => id.hex == hex
  | some (.string s) => s == hex
  | _ => false

/-! ## Evaluation -/

mutual

/-- The field, if it is there, satisfies the constraint. -/
def Constraint.holds (v : Option Value) : Constraint → Bool
  | .predicate p => p.holds v
  | .matcher m => m.accepts v
  | .identifier hex => identifierHolds hex v
  | .pattern p => p.holds (v.getD .null)
  | .operators ops => operatorsHold v ops
  | .literal literal => literalHolds literal (v.getD .null)

def operatorsHold (v : Option Value) : List Operator → Bool
  | [] => true
  | op :: rest =>
      match op with
      | .presence expected => v.isSome == expected
      | op => op.holds v && operatorsHold v rest

def Operator.holds (v : Option Value) : Operator → Bool
  | .compare side inclusive operand => compareHolds side inclusive operand (v.getD .null)
  | .equal operand => (v.getD .null).strictEq operand
  | .notEqual operand => !(v.getD .null).looseEq operand
  | .anyOf choices => choiceHolds choices (v.getD .null)
  | .noneOf choices => !choiceHolds choices (v.getD .null)
  | .element c =>
      match v with
      | some (.array items) => items.any fun item => c.holds (some item)
      | v => c.holds v
  | .elementQuery clauses =>
      match v with
      | some (.array items) => items.any fun
          | .document d => clausesHold d clauses
          | _ => false
      | some (.document d) => clausesHold d clauses
      | _ => false
  | .presence expected => v.isSome == expected
  | .size n =>
      match v with
      | some (.array items) => items.length == n
      | _ => false
  | .kind kinds => v.any fun v => kinds.any (·.includes v)
  | .negation c => !c.holds v
  | .constant b => b
  | .regex p => p.holds (v.getD .null)
  | .all operands => allHolds operands (v.getD .null)
  | .instanceOf name => v.any fun v => v.kindName == name
  | .custom test operand => test v operand

def Clause.holds (d : Document) : Clause → Bool
  | .field path c => c.holds (d.resolve? path)
  | .all queries => allHold d queries
  | .any queries => anyHolds d queries
  | .none queries => !anyHolds d queries
  | .group clauses => clausesHold d clauses
  | .isolated => true

def clausesHold (d : Document) : List Clause → Bool
  | [] => true
  | c :: rest => c.holds d && clausesHold d rest

def allHold (d : Document) : List (List Clause) → Bool
  | [] => true
  | q :: rest => clausesHold d q && allHold d rest

def anyHolds (d : Document) : List (List Clause) → Bool
  | [] => false
  | q :: rest => clausesHold d q || anyHolds d rest

end

namespace Query

/-- The document satisfies every clause. -/
def holds (q : Query) (d : Document) : Bool := clausesHold d q

/-- The documents that satisfy the query, in order. -/
def select (q : Query) (documents : List Document) : List Document :=
  documents.filter q.holds

end Query

end DocStore
