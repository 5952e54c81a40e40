import DocStore.Proofs.Divergence
import DocStore.Proofs.Reflexivity
import DocStore.Query.Compile

/-!
# Reading back what has been set

Fields that an update sets at paths that diverge read back as they were given,
and `$eq` finds them (`Update.set_reads_back`). There are three exceptions. A
key of the document may spell the path, dots and all, and then it is read
instead (`Document.shadows`). An update that changes nothing but the order of
keys leaves the document as it was, so that what is read is only the same as
what was given (`Document.resolve?_of_same`); that is enough for `$eq` if no
document in the value has two keys (`Value.Orderless`). And under a number, or
a name that begins with a dollar sign, a filter does not look for a field.
-/

namespace DocStore

open DocStore.Path

/-! ## Documents that are the same -/

/-- There is nothing in either place, or the same in both. -/
abbrev SameOrMissing : Option Value → Option Value → Prop :=
  Option.Rel fun v w => v.same w = true

theorem SameOrMissing.bind {x y : Option Value} {f g : Value → Option Value}
    (h : SameOrMissing x y)
    (hfg : ∀ v w, x = some v → y = some w → v.same w = true → SameOrMissing (f v) (g w)) :
    SameOrMissing (x.bind f) (y.bind g) := by
  cases h with
  | none => exact .none
  | some hsame => exact hfg _ _ rfl rfl hsame

theorem SameOrMissing.eq_none {y : Option Value} (h : SameOrMissing none y) : y = none := by
  cases h
  rfl

theorem SameOrMissing.exists_of_some {v : Value} {y : Option Value}
    (h : SameOrMissing (some v) y) : ∃ w, y = some w ∧ v.same w = true := by
  cases h with
  | some hsame => exact ⟨_, rfl, hsame⟩

section Same

variable {a b : Value} {d e : Document}

theorem getElem?_of_forall₂ {R : Value → Value → Prop} {xs ys : List Value}
    (h : List.Forall₂ R xs ys) (i : Nat) : Option.Rel R xs[i]? ys[i]? := by
  induction h generalizing i with
  | nil => exact .none
  | cons hxy _ ih =>
      cases i with
      | zero => exact .some hxy
      | succ i => exact ih i

/-- Distinct names, so that a name is missing from both documents or from none. -/
theorem Document.get?_of_same (hd : d.WellFormed) (he : e.WellFormed) (h : d.same e = true)
    (key : String) : SameOrMissing (d.get? key) (e.get? key) := by
  rw [Document.same, Bool.and_eq_true, beq_iff_eq] at h
  have hpaired := sameFields_iff.mp h.2
  cases hget : d.get? key with
  | some v =>
      obtain ⟨w, hw, hsame⟩ := hpaired _ (mem_of_get?_eq_some hget)
      exact hw ▸ .some hsame
  | none =>
      cases hother : e.get? key with
      | none => exact .none
      | some w =>
          have hswapped := paired_swap (R := fun v w => v.same w = true)
            hd.nodup he.nodup h.1 hpaired
          obtain ⟨v, hv, -⟩ := hswapped _ (mem_of_get?_eq_some hother)
          cases hget.symm.trans hv

theorem Value.child?_of_same (ha : a.WellFormed) (hb : b.WellFormed) (h : a.same b = true)
    (segment : String) : SameOrMissing (a.child? segment) (b.child? segment) := by
  revert h
  fun_cases Value.same a b
  case case3 xs ys =>
      intro h
      rw [child?, child?]
      cases index? segment with
      | none => exact .none
      | some i => exact getElem?_of_forall₂ (sameItems_iff.mp h) i
  case case4 xs ys => exact fun h => Document.get?_of_same ha hb h segment
  case case22 => exact fun h => Bool.noConfusion h
  all_goals exact fun _ => .none

theorem Value.descend?_of_same {path : List String} (ha : a.WellFormed) (hb : b.WellFormed)
    (h : a.same b = true) : SameOrMissing (a.descend? path) (b.descend? path) := by
  induction path generalizing a b with
  | nil => exact .some h
  | cons segment rest ih =>
      rw [descend?, descend?]
      refine (child?_of_same ha hb h segment).bind fun v w hv hw hsame => ?_
      exact ih (ha.child? hv) (hb.child? hw) hsame

/-- In two documents that are the same, a path leads to the same. -/
theorem Document.resolve?_of_same (hd : d.WellFormed) (he : e.WellFormed) (h : d.same e = true)
    (path : String) : SameOrMissing (d.resolve? path) (e.resolve? path) := by
  have hget := get?_of_same hd he h path
  have hdescend : SameOrMissing ((Value.document d).descend? (segments path))
      ((Value.document e).descend? (segments path)) := Value.descend?_of_same hd he h
  unfold resolve?
  cases hx : d.get? path <;> cases hy : e.get? path <;> rw [hx, hy] at hget
  · exact hdescend
  · cases hget
  · cases hget
  · exact hget

end Same

/-! ## The order of keys -/

/-- No document in the value has two keys that could change places. -/
inductive Value.Orderless : Value → Prop where
  | scalar {v : Value} (harray : v.isArray = false) (hdocument : v.isDocument = false) :
      Orderless v
  | array {items : List Value} (h : ∀ v ∈ items, Value.Orderless v) : Orderless (.array items)
  | empty : Orderless (.document [])
  | single {key : String} {v : Value} (h : Value.Orderless v) : Orderless (.document [(key, v)])

/-- Without an order of keys, what is the same is strictly equal. -/
theorem Value.Orderless.strictEq_of_same {v w : Value} (h : v.Orderless) (hsame : v.same w = true) :
    v.strictEq w = true := by
  induction h generalizing w with
  | @scalar v harray hdocument =>
      fun_cases Value.strictEq v w
      case case1 | case2 => cases hsame
      case case3 => cases harray
      case case4 => cases hdocument
      case case5 => exact hsame
  | @array items h ih =>
      cases w with
      | array others =>
          have hitems := List.forall₂_iff_get.mp (sameItems_iff.mp hsame)
          refine strictItems_iff.mpr (List.forall₂_iff_get.mpr ⟨hitems.1, fun i hi hj => ?_⟩)
          exact ih _ (List.get_mem ..) (hitems.2 i hi hj)
      | _ => cases hsame
  | empty =>
      cases w with
      | document fields =>
          cases fields with
          | nil => rfl
          | cons field rest => cases hsame
      | _ => cases hsame
  | @single key v h ih =>
      cases w with
      | document fields =>
          rw [Value.same, Bool.and_eq_true, beq_iff_eq] at hsame
          obtain ⟨⟨name, x⟩, rfl⟩ := List.length_eq_one_iff.mp hsame.1.symm
          obtain ⟨y, hget, hy⟩ := sameFields_iff.mp hsame.2 _ (List.mem_singleton_self _)
          obtain ⟨rfl, rfl⟩ : key = name ∧ x = y := by
            have hmem := Document.mem_of_get?_eq_some hget
            simpa [eq_comm] using hmem
          exact strictFields_iff.mpr (.cons ⟨rfl, ih hy⟩ .nil)
      | _ => cases hsame

/-! ## Filters on one field -/

/-- The key is no operator and no number, or it is the hint that is always true. -/
theorem Filter.compile_single [Pattern.Engine] {settings : Settings} {key : String} {d : Document}
    {c : Constraint} (hkey : keyRole key = .field ∨ keyRole key = .isolated)
    (hc : compileValue settings (.document d) = .ok c) :
    ∃ q, Filter.compile settings [(key, .value (.document d))] = .ok q ∧
      ∀ e : Document, c.holds (e.resolve? key) = true → q.holds e = true := by
  have hconstraint : documentConstraint d (compileOperators settings d d) = .ok c := hc
  rcases hkey with hkey | hkey
  · refine ⟨[.field key c], ?_, fun e he => ?_⟩
    · simp only [Filter.compile, compileConditions, compileCondition, compileClause, fieldClause,
        hkey, hconstraint]
      rfl
    · show (c.holds (e.resolve? key) && true) = true
      rw [he]
      rfl
  · refine ⟨[.isolated], ?_, fun _ _ => rfl⟩
    simp only [Filter.compile, compileConditions, compileCondition, compileClause, fieldClause,
      hkey]
    rfl

/-- A document of a single operator. -/
theorem compileValue_single [Pattern.Engine] {settings : Settings} {key : String} {operand : Value}
    {op : Operator} (hkey : Document.isOperatorKey key = true)
    (hop : compileOperator settings [(key, operand)] key operand = .ok (some op)) :
    compileValue settings (.document [(key, operand)]) = .ok (.operators [op]) := by
  have hform : Document.operatorForm [(key, operand)] = .ok true := by
    simp [Document.operatorForm, Document.hasOperatorKey, Document.keys, hkey]
  rw [compileValue, documentConstraint, hform, compileOperators, hop]
  rfl

theorem compileValue_equal [Pattern.Engine] (settings : Settings) (v : Value) :
    compileValue settings (.document [("$eq", v)]) = .ok (.operators [.equal v]) := by
  refine compileValue_single (by decide) ?_
  cases v <;> rfl

theorem compileValue_exists [Pattern.Engine] (settings : Settings) (b : Bool) :
    compileValue settings (.document [("$exists", .boolean b)]) = .ok (.operators [.presence b]) :=
  compileValue_single (by decide) rfl

/-! ## Reading back -/

/-- Fields that are set at paths that diverge read back, and `$eq` finds them, where no key
spells the path. If the document is left as it was, what is read is the same in some order of
its keys. -/
theorem Update.set_reads_back [Pattern.Engine] {d changed fields : Document} {differs : Bool}
    (hd : d.WellFormed) (hfields : fields.WellFormed)
    (h : (Update.parse [("$set", .document fields)] >>= fun u => u.apply d) =
      .ok (changed, differs))
    (hdiverge : fields.Pairwise fun a b => Diverging a.1 b.1) :
    ∀ field ∈ fields, d.shadows field.1 = false →
      (differs = true → changed.resolve? field.1 = some field.2) ∧
      (differs = false → ∃ v, changed.resolve? field.1 = some v ∧ field.2.same v = true) ∧
      ((differs = true ∨ field.2.Orderless) → field.2.NaNFree →
        (keyRole field.1 = .field ∨ keyRole field.1 = .isolated) → ∀ settings, ∃ q,
          Filter.compile settings [(field.1, .value (.document [("$eq", field.2)]))] = .ok q ∧
            q.holds changed = true) := by
  intro field hmem hshadow
  obtain ⟨updated, hupdated, hcase⟩ := map_eq_ok_iff.mp ((apply_single .set fields d).symm.trans h)
  have hread : updated.resolve? field.1 = some field.2 :=
    UpdateOperator.resolve?_of_apply_set hupdated hdiverge field hmem hshadow
  have hv : field.2.WellFormed := hfields.field hmem
  have hafter : updated.WellFormed :=
    (UpdateOperator.edits_apply hupdated).wellFormed (fun _ => hfields.field) hd
  have hfind : ∀ {w}, changed.resolve? field.1 = some w → w.strictEq field.2 = true →
      (keyRole field.1 = .field ∨ keyRole field.1 = .isolated) → ∀ settings, ∃ q,
        Filter.compile settings [(field.1, .value (.document [("$eq", field.2)]))] = .ok q ∧
          q.holds changed = true := by
    intro w hw hstrict hkey settings
    obtain ⟨q, hq, hholds⟩ := Filter.compile_single hkey (compileValue_equal settings field.2)
    refine ⟨q, hq, hholds changed ?_⟩
    rw [hw]
    simp [Constraint.holds, operatorsHold, Operator.holds, hstrict]
  split at hcase
  rotate_left
  · obtain ⟨rfl, rfl⟩ := Prod.mk.inj hcase
    refine ⟨fun _ => hread, fun hno => Bool.noConfusion hno, fun _ hfree => ?_⟩
    exact hfind hread (Value.strictEq_self hv hfree)
  · rename_i hsame
    obtain ⟨rfl, rfl⟩ := Prod.mk.inj hcase
    have hlike := Document.resolve?_of_same hafter hd hsame field.1
    rw [hread] at hlike
    obtain ⟨w, hw, hsame⟩ := hlike.exists_of_some
    refine ⟨fun hyes => Bool.noConfusion hyes, fun _ => ⟨w, hw, hsame⟩, fun horder _ => ?_⟩
    have hstrict := (horder.resolve_left Bool.false_ne_true).strictEq_of_same hsame
    exact hfind hw (Value.strictEq_symm hv (hd.resolve? hw) hstrict)

/-- Through a null in an array, past its end and beside a key with a dot. -/
theorem Update.set_reads_back_nested :
    let d : Document :=
      [("a", .document [("b", .array [.int32 1, .null])]), ("a.d", .int32 0)]
    let fields : Document :=
      [("a.b.1.c", .string "x"), ("a.b.+3", .document [("y", .int32 1), ("x", .null)]),
        ("e", .array [])]
    let changed : Document :=
      [("a", .document [("b", .array [.int32 1, .document [("c", .string "x")], .null,
        .document [("y", .int32 1), ("x", .null)]])]), ("a.d", .int32 0), ("e", .array [])]
    (Update.parse [("$set", .document fields)] >>= fun u => u.apply d) = .ok (changed, true) ∧
      (∀ field ∈ fields, changed.resolve? field.1 = some field.2) ∧
      ∃ q, Filter.compile .default
          [("a.b.+3", .value (.document [("$eq", .document [("y", .int32 1), ("x", .null)])]))] =
            .ok q ∧ q.holds changed = true := by
  intro d fields changed
  have hd : d.WellFormed := by
    simp [d, Document.WellFormed, Value.WellFormed, fieldsWellFormed, allWellFormed]
  have hfields : fields.WellFormed := by
    simp [fields, Document.WellFormed, Value.WellFormed, fieldsWellFormed, allWellFormed]
  have hfree : (Value.document [("y", .int32 1), ("x", .null)]).NaNFree := by
    refine .intro (by rintro d ⟨⟩) (List.forall_mem_cons.mpr ⟨?_, List.forall_mem_singleton.mpr ?_⟩)
    · exact .of_scalar (by rintro d ⟨⟩) rfl
    · exact .of_scalar (by rintro d ⟨⟩) rfl
  have hshadows : ∀ field ∈ fields, d.shadows field.1 = false := by decide
  have happly :
      (Update.parse [("$set", .document fields)] >>= fun u => u.apply d) = .ok (changed, true) :=
    (congrArg (· >>= fun u => Update.apply u d) (parse_single .set fields)).trans rfl
  have hread := set_reads_back hd hfields happly (by decide)
  refine ⟨happly, fun field hfield => (hread field hfield (hshadows field hfield)).1 rfl, ?_⟩
  have hmem : ("a.b.+3", .document [("y", .int32 1), ("x", .null)]) ∈ fields := by simp [fields]
  exact (hread _ hmem (hshadows _ hmem)).2.2 (Or.inl rfl) hfree (Or.inl (by decide)) _

/-- A key that spells the path is read instead; an order of keys is not written alone; under a
number a filter does not look for a field. -/
theorem Update.set_not_read_back :
    let applied (d : Document) (path : String) (v : Value) :=
      Update.parse [("$set", .document [(path, v)])] >>= fun u => u.apply d
    (∃ changed, applied [("a.b", .int32 1)] "a.b" (.int32 2) = .ok (changed, true) ∧
      changed.resolve? "a.b" = some (.int32 1)) ∧
    (∃ changed q,
      applied [("a", .document [("x", .int32 1), ("y", .int32 2)])] "a"
        (.document [("y", .int32 2), ("x", .int32 1)]) = .ok (changed, false) ∧
      Filter.compile .default
        [("a", .value (.document [("$eq", .document [("y", .int32 2), ("x", .int32 1)])]))] =
          .ok q ∧ q.holds changed = false) ∧
    ∃ changed, applied [] "0" (.int32 1) = .ok (changed, true) ∧
      Filter.compile .default [("0", .value (.document [("$eq", .int32 1)]))] =
        .error (.unsupportedOperator "$eq") := by
  refine ⟨⟨[("a.b", .int32 1), ("a", .document [("b", .int32 2)])], ?_, rfl⟩,
    ⟨[("a", .document [("x", .int32 1), ("y", .int32 2)])],
      [.field "a" (.operators [.equal (.document [("y", .int32 2), ("x", .int32 1)])])],
      ?_, rfl, rfl⟩, [("0", .int32 1)], ?_, ?_⟩
  · exact (apply_single .set _ _).trans rfl
  · exact (apply_single .set _ _).trans rfl
  · exact (apply_single .set _ _).trans rfl
  · cbv

end DocStore
