import DocStore.Proofs.Literals
import DocStore.Proofs.ReadBack

/-!
# Lists of values and alternatives

A value of a list under `$in` is looked for as it would be on its own, in a
member of an `$or`: loosely, in a field and among the items of an array. Only
an object identifier is not. On its own it is compared by the string that spells
it, and an array is not looked into (`identifierHolds_iff`), while a list has
each of its values compared with the items (`foundIn_iff_equality`). So the two
differ by the arrays that have a listed identifier among their items
(`HasListedIdentifier`).

The values meant are scalars other than texts and patterns. A key of digits
alone is no field name here: a document under it is a filter, not a list of
operators.
-/

namespace DocStore

/-- A scalar that asks for nothing but equality. -/
def Value.isPlainScalar : Value → Bool
  | .string _ => false
  | .regex _ _ => false
  | .document _ => false
  | .array _ => false
  | _ => true

/-- What a plain scalar asks of a field. -/
def Value.equality : Value → Constraint
  | .objectId id => .identifier id.hex
  | v => .literal v

/-- A single operator that takes a list of values. -/
def Filter.listing (operator path : String) (values : List Value) : Filter :=
  [(path, .value (.document [(operator, .array values)]))]

/-- A list of filters, one for each of the values. -/
def Filter.alternatives (junction path : String) (values : List Value) : Filter :=
  [(junction, .value (.array (values.map fun v => .document [(path, v)])))]

/-- The field is an array with an identifier of the list among its items, or a string that spells
one. -/
def HasListedIdentifier (d : Document) (path : String) (values : List Value) : Prop :=
  ∃ items, d.resolve? path = some (.array items) ∧
    ∃ item ∈ items, ∃ id, .objectId id ∈ values ∧ (item = .objectId id ∨ item = .string id.hex)

variable {settings : Settings} {path : String} {v w : Value} {values : List Value}

/-! ## Compiled forms -/

section Compiled

variable [Pattern.Engine]

theorem compileClause_plainScalar (hpath : keyRole path = .field) (hv : v.isPlainScalar = true) :
    compileClause settings path v = .ok (.field path v.equality) := by
  cases v with
  | string _ | regex _ _ | document _ | array _ => cases hv
  | _ =>
      simp only [compileClause, fieldClause, hpath]
      rfl

theorem compileMembers_plainScalars (hpath : keyRole path = .field) (key : String) :
    ∀ {values : List Value}, (∀ v ∈ values, v.isPlainScalar = true) →
      compileMembers settings key (values.map fun v => .document [(path, v)]) =
        .ok (values.map fun v => [.field path v.equality])
  | [], _ => rfl
  | v :: rest, hplain => by
      obtain ⟨hv, hrest⟩ := List.forall_mem_cons.mp hplain
      simp only [List.map_cons, compileMembers, compileClauses, compileClause_plainScalar hpath hv,
        compileMembers_plainScalars hpath key hrest]
      rfl

theorem compile_alternatives {key : String} {junction : Junction}
    (hkey : keyRole key = .logical junction) (hpath : keyRole path = .field)
    (hvalues : values ≠ []) (hplain : ∀ v ∈ values, v.isPlainScalar = true) :
    (Filter.alternatives key path values).compile settings =
      .ok [junction.clause (values.map fun v => [.field path v.equality])] := by
  have hmembers : (values.map fun v => Value.document [(path, v)]).isEmpty = false := by
    simpa using hvalues
  simp only [Filter.alternatives, Filter.compile, compileConditions, compileCondition,
    compileClause, hkey, hmembers, compileMembers_plainScalars hpath key hplain]
  rfl

theorem compileChoices_plainScalars (key : String) (hplain : ∀ v ∈ values, v.isPlainScalar = true) :
    compileChoices settings key (.array values) = .ok (values.map .value) := by
  rw [compileChoices]
  induction values with
  | nil => rfl
  | cons v rest ih =>
      obtain ⟨hv, hrest⟩ := List.forall_mem_cons.mp hplain
      have hchoice : compileChoice settings v = .ok (.value v) := by
        cases v with
        | string _ | regex _ _ => cases hv
        | _ => rfl
      rw [List.mapM_cons, hchoice, ih hrest]
      rfl

theorem compile_listing {key : String} (op : List Choice → Operator)
    (hkey : Document.isOperatorKey key = true)
    (hop : compileOperator settings [(key, .array values)] key (.array values) =
      (compileChoices settings key (.array values)).map fun choices => some (op choices))
    (hpath : keyRole path = .field) (hplain : ∀ v ∈ values, v.isPlainScalar = true) :
    (Filter.listing key path values).compile settings =
      .ok [.field path (.operators [op (values.map .value)])] := by
  rw [compileChoices_plainScalars key hplain] at hop
  have hconstraint := compileValue_single hkey hop
  rw [compileValue] at hconstraint
  simp only [Filter.listing, Filter.compile, compileConditions, compileCondition, compileClause,
    fieldClause, hpath, hconstraint]
  rfl

theorem compile_in (hpath : keyRole path = .field)
    (hplain : ∀ v ∈ values, v.isPlainScalar = true) :
    (Filter.listing "$in" path values).compile settings =
      .ok [.field path (.operators [.anyOf (values.map .value)])] :=
  compile_listing .anyOf (by decide) rfl hpath hplain

theorem compile_nin (hpath : keyRole path = .field)
    (hplain : ∀ v ∈ values, v.isPlainScalar = true) :
    (Filter.listing "$nin" path values).compile settings =
      .ok [.field path (.operators [.noneOf (values.map .value)])] :=
  compile_listing .noneOf (by decide) rfl hpath hplain

end Compiled

/-! ## One value -/

/-- The value, or an item of it, is loosely equal to what is looked for. -/
def Value.FoundIn (v w : Value) : Prop :=
  w.looseEq v = true ∨ ∃ items, w = .array items ∧ ∃ item ∈ items, item.looseEq v = true

theorem choiceHolds_values_iff :
    choiceHolds (values.map .value) w = true ↔ ∃ v ∈ values, v.FoundIn w := by
  have hany : ∀ x : Value, (values.map Choice.value).any (Choice.holds x) = true ↔
      ∃ v ∈ values, x.looseEq v = true := by
    intro x
    simp [Choice.holds, List.any_map]
  unfold choiceHolds Value.FoundIn
  rw [Bool.or_eq_true, hany]
  cases w with
  | array items =>
      simp only [List.any_eq_true, hany]
      constructor
      · rintro (⟨v, hv, heq⟩ | ⟨item, hitem, v, hv, heq⟩)
        · exact ⟨v, hv, Or.inl heq⟩
        · exact ⟨v, hv, Or.inr ⟨items, rfl, item, hitem, heq⟩⟩
      · rintro ⟨v, hv, heq | ⟨_, ⟨⟩, item, hitem, heq⟩⟩
        · exact Or.inl ⟨v, hv, heq⟩
        · exact Or.inr ⟨item, hitem, v, hv, heq⟩
  | _ => simp

theorem Value.looseEq_objectId_iff {id : ObjectId} :
    w.looseEq (.objectId id) = true ↔ w = .objectId id ∨ w = .string id.hex := by
  cases w with
  | objectId other =>
      show (other == id) = true ↔ _
      simp
  | string s =>
      refine beq_iff_eq.trans ⟨fun h => Or.inr (congrArg _ h.symm), fun h => ?_⟩
      rcases h with h | h
      · cases h
      · exact (Value.string.inj h).symm
  | _ => exact iff_of_false Bool.false_ne_true (by simp)

theorem identifierHolds_iff {id : ObjectId} {field : Option Value} :
    identifierHolds id.hex field = true ↔
      ∃ w, field = some w ∧ w.looseEq (.objectId id) = true := by
  rw [identifierHolds_hex]
  cases field with
  | none => simp [Meaning.identifier]
  | some w => cases w <;> simp [Meaning.identifier, Value.looseEq_objectId_iff]

theorem literalHolds_iff_foundIn (hv : v.isPlainScalar = true) :
    literalHolds v w = true ↔ v.FoundIn w := by
  have hscalar : v.isArray = false ∧ v.isDocument = false := by
    cases v <;> first | exact ⟨rfl, rfl⟩ | cases hv
  unfold literalHolds Value.FoundIn
  rw [Bool.or_eq_true]
  refine or_congr_right ?_
  cases w with
  | array items => simp [hscalar]
  | binary subtype bytes =>
      cases v with
      | string s => cases hv
      | _ => simp
  | _ => simp

/-- A list finds what equality on its own does and, among the items of an array, identifiers. -/
theorem Value.foundIn_iff_equality (hv : v.isPlainScalar = true) {field : Option Value} :
    v.FoundIn (field.getD .null) ↔ v.equality.holds field = true ∨
      ∃ items, field = some (.array items) ∧
        ∃ item ∈ items, ∃ id, .objectId id = v ∧ (item = .objectId id ∨ item = .string id.hex) := by
  -- Any other value is a literal, which looks into arrays of its own accord.
  by_cases hid : ∃ id, v = .objectId id
  · obtain ⟨id, rfl⟩ := hid
    have hholds : (equality (.objectId id)).holds field = identifierHolds id.hex field := by
      simp only [equality, Constraint.holds]
    rw [hholds, identifierHolds_iff]
    cases field with
    | none => simp [FoundIn, looseEq_objectId_iff]
    | some w => simp [FoundIn, looseEq_objectId_iff]
  · have hequality : v.equality = .literal v := by
      cases v with
      | objectId id => exact (hid ⟨id, rfl⟩).elim
      | _ => rfl
    rw [hequality, Constraint.holds, literalHolds_iff_foundIn hv]
    refine (or_iff_left ?_).symm
    rintro ⟨-, -, -, -, id, rfl, -⟩
    exact hid ⟨id, rfl⟩

/-! ## All of them -/

theorem anyHolds_equalities_iff {d : Document} :
    anyHolds d (values.map fun v => [.field path v.equality]) = true ↔
      ∃ v ∈ values, v.equality.holds (d.resolve? path) = true := by
  induction values with
  | nil => simp [anyHolds]
  | cons v rest ih => simp [anyHolds, clausesHold, Clause.holds, ih]

theorem choiceHolds_iff_alternatives (d : Document) (path : String)
    (hplain : ∀ v ∈ values, v.isPlainScalar = true) :
    choiceHolds (values.map .value) ((d.resolve? path).getD .null) = true ↔
      anyHolds d (values.map fun v => [.field path v.equality]) = true ∨
        HasListedIdentifier d path values := by
  rw [choiceHolds_values_iff, anyHolds_equalities_iff]
  constructor
  · rintro ⟨v, hv, hfound⟩
    rcases (Value.foundIn_iff_equality (hplain v hv)).mp hfound with
      hequal | ⟨items, hitems, item, hitem, id, rfl, heq⟩
    · exact Or.inl ⟨v, hv, hequal⟩
    · exact Or.inr ⟨items, hitems, item, hitem, id, hv, heq⟩
  · rintro (⟨v, hv, hequal⟩ | ⟨items, hitems, item, hitem, id, hv, heq⟩)
    · exact ⟨v, hv, (Value.foundIn_iff_equality (hplain v hv)).mpr (Or.inl hequal)⟩
    · exact ⟨_, hv, (Value.foundIn_iff_equality (hplain _ hv)).mpr
        (Or.inr ⟨items, hitems, item, hitem, id, rfl, heq⟩)⟩

/-- A list of plain scalars is the disjunction of its members, but for the identifiers that it
finds in arrays; and `$nin` is to `$nor` as `$in` is to `$or`. -/
theorem Filter.list_as_alternatives [Pattern.Engine] (settings : Settings)
    (hpath : keyRole path = .field) (hvalues : values ≠ [])
    (hplain : ∀ v ∈ values, v.isPlainScalar = true) :
    ∃ isIn isAny isNotIn isNone : Query,
      (Filter.listing "$in" path values).compile settings = .ok isIn ∧
      (Filter.alternatives "$or" path values).compile settings = .ok isAny ∧
      (Filter.listing "$nin" path values).compile settings = .ok isNotIn ∧
      (Filter.alternatives "$nor" path values).compile settings = .ok isNone ∧
      ∀ d, (isIn.holds d = true ↔ isAny.holds d = true ∨ HasListedIdentifier d path values) ∧
        (isNotIn.holds d = true ↔ isNone.holds d = true ∧ ¬ HasListedIdentifier d path values) := by
  refine ⟨_, _, _, _, compile_in hpath hplain,
    compile_alternatives rfl hpath hvalues hplain,
    compile_nin hpath hplain,
    compile_alternatives rfl hpath hvalues hplain, fun d => ?_⟩
  have hlist := choiceHolds_iff_alternatives d path hplain
  simp only [Query.holds, clausesHold, Clause.holds, Constraint.holds, operatorsHold,
    Operator.holds, Junction.clause, Bool.and_true, Bool.not_eq_true', Bool.eq_false_iff, ne_eq]
  exact ⟨hlist, (not_congr hlist).trans not_or⟩

/-- A list with an identifier finds the string that spells it in an array. -/
theorem Filter.list_as_alternatives_spelled :
    let id : ObjectId := ⟨List.replicate 12 0, rfl⟩
    let values : List Value := [.null, .objectId id]
    let d : Document := [("tags", .array [.string id.hex])]
    keyRole "tags" = .field ∧ values ≠ [] ∧ (∀ v ∈ values, v.isPlainScalar = true) ∧
      ∃ isIn isNotIn : Query,
        (Filter.listing "$in" "tags" values).compile .default = .ok isIn ∧
        (Filter.listing "$nin" "tags" values).compile .default = .ok isNotIn ∧
        isIn.holds d = true ∧ isNotIn.holds d = false := by
  intro id values d
  have hplain : ∀ v ∈ values, v.isPlainScalar = true := by decide
  have hlisted : HasListedIdentifier d "tags" values :=
    ⟨_, rfl, .string id.hex, List.mem_singleton_self _, id, by simp [values], Or.inr rfl⟩
  obtain ⟨isIn, _, isNotIn, _, hisIn, -, hisNotIn, -, hiff⟩ :=
    @list_as_alternatives "tags" values _ .default rfl (List.cons_ne_nil _ _) hplain
  refine ⟨rfl, List.cons_ne_nil _ _, hplain, isIn, isNotIn, hisIn, hisNotIn, ?_, ?_⟩
  · exact (hiff d).1.mpr (Or.inr hlisted)
  · exact Bool.eq_false_iff.mpr fun h => ((hiff d).2.mp h).2 hlisted

/-- On its own an identifier is not looked for in an array, and no operator can stand under a key
of digits alone. -/
theorem Filter.not_list_as_alternatives :
    let id : ObjectId := ⟨List.replicate 12 0, rfl⟩
    (∃ isIn isAny : Query,
      (Filter.listing "$in" "a" [.objectId id]).compile .default = .ok isIn ∧
      (Filter.alternatives "$or" "a" [.objectId id]).compile .default = .ok isAny ∧
      isIn.holds [("a", .array [.objectId id])] = true ∧
      isAny.holds [("a", .array [.objectId id])] = false) ∧
    (Filter.listing "$in" "0" [.int32 7]).compile .default = .error (.unsupportedOperator "$in") ∧
    ∃ isAny : Query, (Filter.alternatives "$or" "0" [.int32 7]).compile .default = .ok isAny ∧
      isAny.holds [("0", .int32 7)] = true := by
  intro id
  have hidentifier : ∀ v ∈ [Value.objectId id], v.isPlainScalar = true := by decide
  have hidentified : (Filter.alternatives "$or" "a" [.objectId id]).compile .default =
      .ok [Junction.any.clause [[.field "a" (.identifier id.hex)]]] :=
    compile_alternatives rfl rfl (List.cons_ne_nil _ _) hidentifier
  have hdigits : (Filter.alternatives "$or" "0" [.int32 7]).compile .default =
      .ok [Junction.any.clause [[.field "0" (.literal (.int32 7))]]] := rfl
  refine ⟨⟨_, _, compile_in rfl hidentifier, hidentified, ?_, ?_⟩, rfl, _, hdigits, ?_⟩
  · decide
  · decide
  · decide

end DocStore
