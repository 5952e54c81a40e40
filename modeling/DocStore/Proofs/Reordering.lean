import DocStore.Proofs.Meaning
import DocStore.Proofs.Reflexivity

/-!
# Filters in another order

Which filters say the same in another order (`Filter.Reordered`). What may
change its place is said part by part, for every kind of part that a filter
has: the keys of a literal, the operators in a document, the members of a list
of alternatives, the entries of a filter and the members of a list of filters.
Two such parts are reorderings of one another if they are so piece by piece,
and the pieces of one of them are then put in any order. An `$exists` has the
last word, so operators change their places only where none is among them;
inside their operands the reordering goes on.

The names of the fields go along (`OfOperators.perm_keys` and those that stand
with it), and a literal in another order is loosely equal to the same values
(`OfLiteral.looseEq`).
-/

namespace DocStore

namespace Reordering

/-! ## Literals -/

mutual

/-- The same literal but for the order of its keys, at any depth. -/
inductive OfLiteral : Value → Value → Prop where
  | same (v : Value) : OfLiteral v v
  | array {xs ys : List Value} (h : OfItems xs ys) : OfLiteral (.array xs) (.array ys)
  | document {d e : Document} (h : OfFields d e) : OfLiteral (.document d) (.document e)

inductive OfItems : List Value → List Value → Prop where
  | nil : OfItems [] []
  | cons {v w : Value} {xs ys : List Value} (item : OfLiteral v w) (rest : OfItems xs ys) :
      OfItems (v :: xs) (w :: ys)

inductive OfFields : Document → Document → Prop where
  | nil : OfFields [] []
  | cons {key : String} {v w : Value} {d e : Document} (field : OfLiteral v w)
      (rest : OfFields d e) : OfFields ((key, v) :: d) ((key, w) :: e)
  | order {d e e' : Document} (h : OfFields d e) (he : e.Perm e') : OfFields d e'

end

/-! ## Constraints and filter documents -/

mutual

/-- The same constraint: a literal, or a document of operators. -/
inductive OfConstraint : Value → Value → Prop where
  | literal {v w : Value} (hv : ∀ d, v = .document d → Document.hasOperatorKey d = false)
      (h : OfLiteral v w) : OfConstraint v w
  | operators {d e : Document} (hd : d.hasOperatorKey = true) (h : OfOperators d e) :
      OfConstraint (.document d) (.document e)

/-- The same operators, with the same operands but for their order. -/
inductive OfOperators : Document → Document → Prop where
  | nil : OfOperators [] []
  | cons {key : String} {v w : Value} {d e : Document} (operand : OfOperand key v w)
      (rest : OfOperators d e) : OfOperators ((key, v) :: d) ((key, w) :: e)
  | order {d e e' : Document} (h : OfOperators d e) (hexists : "$exists" ∉ e.keys)
      (he : e.Perm e') : OfOperators d e'

/-- What the operator of this name is given: alternatives, a constraint, or a
document for the items of an array. Every other operand stays as it is. -/
inductive OfOperand : String → Value → Value → Prop where
  | same (key : String) (v : Value) : OfOperand key v v
  | choices {key : String} {xs ys : List Value} (hkey : key ∈ ["$in", "$nin", "$all"])
      (h : xs.Perm ys) : OfOperand key (.array xs) (.array ys)
  | negation {v w : Value} (h : OfConstraint v w) : OfOperand "$not" v w
  | elementFilter {d e : Document} (hd : Meaning.isSubfilter d = true) (h : OfEntries d e) :
      OfOperand "$elemMatch" (.document d) (.document e)
  | elementOperators {d e : Document} (hd : Meaning.isSubfilter d = false)
      (h : OfOperators d e) : OfOperand "$elemMatch" (.document d) (.document e)

/-- The same entries of a filter document. -/
inductive OfEntries : Document → Document → Prop where
  | nil : OfEntries [] []
  | cons {key : String} {v w : Value} {d e : Document} (entry : OfEntry key v w)
      (rest : OfEntries d e) : OfEntries ((key, v) :: d) ((key, w) :: e)
  | order {d e e' : Document} (h : OfEntries d e) (he : e.Perm e') : OfEntries d e'

/-- An entry is taken by the role of its key. Under a number, only a document
is a filter. -/
inductive OfEntry : String → Value → Value → Prop where
  | same (key : String) (v : Value) : OfEntry key v v
  | field {key : String} {v w : Value} (hkey : keyRole key = .field) (h : OfConstraint v w) :
      OfEntry key v w
  | numbered {key : String} {v w : Value} (hkey : keyRole key = .numeric)
      (hv : v.isDocument = false) (h : OfConstraint v w) : OfEntry key v w
  | group {key : String} {d e : Document} (hkey : keyRole key = .numeric)
      (h : OfEntries d e) : OfEntry key (.document d) (.document e)
  | list {key : String} {j : Junction} {xs ys : List Value} (hkey : keyRole key = .logical j)
      (h : OfMembers xs ys) : OfEntry key (.array xs) (.array ys)

/-- The same filters in a list. What is no document is no filter. -/
inductive OfMembers : List Value → List Value → Prop where
  | nil : OfMembers [] []
  | cons {d e : Document} {xs ys : List Value} (member : OfEntries d e)
      (rest : OfMembers xs ys) : OfMembers (.document d :: xs) (.document e :: ys)
  | stray (v : Value) {xs ys : List Value} (rest : OfMembers xs ys) :
      OfMembers (v :: xs) (v :: ys)
  | order {xs ys ys' : List Value} (h : OfMembers xs ys) (hy : ys.Perm ys') : OfMembers xs ys'

end

/-! ## Filters -/

mutual

/-- The same entries of a filter. -/
inductive OfConditions : Filter → Filter → Prop where
  | nil : OfConditions [] []
  | cons {key : String} {c c' : Condition} {f g : Filter} (entry : OfCondition key c c')
      (rest : OfConditions f g) : OfConditions ((key, c) :: f) ((key, c') :: g)
  | order {f g g' : Filter} (h : OfConditions f g) (hg : g.Perm g') : OfConditions f g'

/-- Tests stay as they are. -/
inductive OfCondition : String → Condition → Condition → Prop where
  | same (key : String) (c : Condition) : OfCondition key c c
  | value {key : String} {v w : Value} (h : OfEntry key v w) :
      OfCondition key (.value v) (.value w)
  | filters {key : String} {fs gs : List Filter} (h : OfFilters fs gs) :
      OfCondition key (.filters fs) (.filters gs)

inductive OfFilters : List Filter → List Filter → Prop where
  | nil : OfFilters [] []
  | cons {f g : Filter} {fs gs : List Filter} (member : OfConditions f g)
      (rest : OfFilters fs gs) : OfFilters (f :: fs) (g :: gs)
  | order {fs gs gs' : List Filter} (h : OfFilters fs gs) (hg : gs.Perm gs') : OfFilters fs gs'

end

end Reordering

/-- The filters say the same in another order, at any depth. -/
def Filter.Reordered (f g : Filter) : Prop := Reordering.OfConditions f g

mutual

/-- The values in the condition are well formed, at any depth. -/
def Condition.ValuesWellFormed : Condition → Prop
  | .value v => v.WellFormed
  | .predicate _ => True
  | .matcher _ => True
  | .filters members => membersValuesWellFormed members

def membersValuesWellFormed : List (List (String × Condition)) → Prop
  | [] => True
  | f :: rest => conditionsValuesWellFormed f ∧ membersValuesWellFormed rest

def conditionsValuesWellFormed : List (String × Condition) → Prop
  | [] => True
  | (_, c) :: rest => c.ValuesWellFormed ∧ conditionsValuesWellFormed rest

end

/-- In no document of the filter a name comes twice. -/
def Filter.ValuesWellFormed (f : Filter) : Prop := conditionsValuesWellFormed f

/-! ## Documents with their fields in another order -/

/-- With distinct names, a field is found wherever it stands. -/
theorem Document.get?_perm {d e : Document} (hd : d.keys.Nodup) (h : d.Perm e) (key : String) :
    d.get? key = e.get? key := by
  have he : e.keys.Nodup := (h.map Prod.fst).nodup_iff.mp hd
  refine Option.ext fun v => ?_
  rw [get?_eq_some_iff hd, get?_eq_some_iff he, h.mem_iff]

theorem Document.hasOperatorKey_perm {d e : Document} (h : d.keys.Perm e.keys) :
    d.hasOperatorKey = e.hasOperatorKey :=
  h.any_eq

/-- Which of the two readings a document under `$elemMatch` has is a matter of its names. -/
theorem Meaning.isSubfilter_perm {d e : Document} (h : d.keys.Perm e.keys) :
    isSubfilter d = isSubfilter e := by
  rw [isSubfilter, isSubfilter, h.any_eq, Document.hasOperatorKey_perm h]

namespace Reordering

theorem OfFields.perm_keys : ∀ {d e : Document}, OfFields d e → d.keys.Perm e.keys
  | _, _, .nil => .refl _
  | _, _, .cons _ rest => rest.perm_keys.cons _
  | _, _, .order h he => h.perm_keys.trans (he.map _)

theorem OfOperators.perm_keys : ∀ {d e : Document}, OfOperators d e → d.keys.Perm e.keys
  | _, _, .nil => .refl _
  | _, _, .cons _ rest => rest.perm_keys.cons _
  | _, _, .order h _ he => h.perm_keys.trans (he.map _)

theorem OfEntries.perm_keys : ∀ {d e : Document}, OfEntries d e → d.keys.Perm e.keys
  | _, _, .nil => .refl _
  | _, _, .cons _ rest => rest.perm_keys.cons _
  | _, _, .order h he => h.perm_keys.trans (he.map _)

theorem OfMembers.isEmpty_eq : ∀ {xs ys : List Value}, OfMembers xs ys → xs.isEmpty = ys.isEmpty
  | _, _, .nil => rfl
  | _, _, .cons .. => rfl
  | _, _, .stray .. => rfl
  | _, _, .order h hy => h.isEmpty_eq.trans hy.isEmpty_eq

theorem OfFilters.isEmpty_eq : ∀ {fs gs : List Filter}, OfFilters fs gs → fs.isEmpty = gs.isEmpty
  | _, _, .nil => rfl
  | _, _, .cons .. => rfl
  | _, _, .order h hg => h.isEmpty_eq.trans hg.isEmpty_eq

/-- A reordering is seen by nothing that looks no further than the kind of an
array or a document. -/
theorem OfConstraint.eq_of_kind {α : Type} {F : Value → α}
    (hdocument : ∀ d e, F (.document d) = F (.document e))
    (harray : ∀ xs ys, F (.array xs) = F (.array ys)) {v w : Value} (h : OfConstraint v w) :
    F v = F w := by
  cases h with
  | literal hplain h =>
      cases h with
      | same => rfl
      | array => exact harray ..
      | document => exact hdocument ..
  | operators => exact hdocument ..

theorem OfConstraint.isDocument_eq {v w : Value} (h : OfConstraint v w) :
    v.isDocument = w.isDocument :=
  h.eq_of_kind (fun _ _ => rfl) fun _ _ => rfl

/-! ## Loose equality -/

theorem looseFields_eq_all (xs ys : Document) :
    looseFields xs ys = xs.all fun field => (ys.get? field.1).any field.2.looseEq := by
  induction xs with
  | nil => rfl
  | cons field rest ih =>
      rw [looseFields, List.all_cons, ih, Document.get?]
      cases ys.lookup field.1 <;> rfl

mutual

/-- In another order a literal is loosely equal to the same values. -/
theorem OfLiteral.looseEq :
    ∀ {v w : Value}, OfLiteral v w → v.WellFormed → ∀ x : Value, x.looseEq v = x.looseEq w
  | _, _, .same v, _, _ => rfl
  | _, _, .array h, hv, x => by
      cases x with
      | array items => exact h.looseItems hv items
      | _ => rfl
  | .document d, .document e, .document h, hv, x => by
      cases x with
      | document fields =>
          have hlength : d.length = e.length := by simpa [Document.keys] using h.perm_keys.length_eq
          rw [Value.looseEq, Value.looseEq, hlength, looseFields_eq_all, looseFields_eq_all]
          simp only [h.like hv.1 hv.2]
      | _ => rfl

theorem OfItems.looseItems :
    ∀ {ys zs : List Value}, OfItems ys zs → allWellFormed ys → ∀ xs : List Value,
      looseItems xs ys = looseItems xs zs
  | _, _, .nil, _, _ => rfl
  | _, _, .cons item rest, hv, [] => rfl
  | _, _, .cons item rest, hv, x :: xs => by
      rw [DocStore.looseItems, DocStore.looseItems, item.looseEq hv.1, rest.looseItems hv.2]

theorem OfFields.like :
    ∀ {d e : Document}, OfFields d e → d.keys.Nodup → fieldsWellFormed d →
      ∀ (key : String) (x : Value), (d.get? key).any x.looseEq = (e.get? key).any x.looseEq
  | _, _, .nil, _, _, _, _ => rfl
  | _, _, .cons field rest, hnodup, hd, key, x => by
      rw [Document.get?_cons, Document.get?_cons]
      split
      · exact field.looseEq hd.1 x
      · exact rest.like hnodup.of_cons hd.2 key x
  | _, _, .order h he, hnodup, hd, key, x => by
      rw [h.like hnodup hd, Document.get?_perm (h.perm_keys.nodup_iff.mp hnodup) he]

end

end Reordering

end DocStore
