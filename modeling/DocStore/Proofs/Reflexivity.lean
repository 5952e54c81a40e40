import DocStore.Proofs.Equality

/-!
# Equal to itself

A value is the same as itself unless there is a NaN in it, at whatever depth
(`Value.same_self_iff`). Without a NaN it is also strictly and loosely equal to
itself (`Value.strictEq_self`, `Value.looseEq_self`), and what is the same as
some other value has no NaN in it (`Value.NaNFree.of_same`).

For the fields of a document this takes distinct names: a field that is looked
up by its name has to be that field.
-/

namespace DocStore

/-- No number in the value is NaN. -/
inductive Value.NaNFree : Value → Prop where
  | intro {v : Value} (number : ∀ d, v = .double d → d.isNaN = false)
      (parts : ∀ w ∈ v.parts, Value.NaNFree w) : NaNFree v

theorem Value.NaNFree.number {d : Double} (h : (Value.double d).NaNFree) : d.isNaN = false := by
  cases h with
  | intro number _ => exact number d rfl

theorem Value.NaNFree.part {v w : Value} (h : v.NaNFree) (hw : w ∈ v.parts) : w.NaNFree := by
  cases h with
  | intro _ parts => exact parts w hw

/-- A value without parts that is no number. -/
theorem Value.NaNFree.of_scalar {v : Value} (hnumber : ∀ d, v ≠ .double d) (hparts : v.parts = []) :
    v.NaNFree :=
  .intro (fun d hd => (hnumber d hd).elim) (by simp [hparts])

/-! ## Numbers -/

theorem Double.compare?_self {d : Double} (h : d.isNaN = false) : d.compare? d = some .eq := by
  have hkey : compare d.key d.key = .eq := Std.ReflCmp.compare_self
  rw [compare?, h, Bool.or_self, if_neg Bool.false_ne_true, hkey]

theorem Double.numEq_self {d : Double} (h : d.isNaN = false) : d.numEq d = true := by
  rw [numEq, compare?_self h]
  rfl

theorem Double.isNaN_of_numEq {a b : Double} (h : a.numEq b = true) : b.isNaN = false := by
  unfold numEq compare? at h
  cases hb : b.isNaN with
  | false => rfl
  | true =>
      rw [hb, Bool.or_true, if_pos rfl] at h
      cases h

/-- Every scalar but NaN compares equal to itself. -/
theorem Scalar.compare?_self {s : Scalar} (hother : s ≠ .other)
    (hnumber : ∀ d, s = .number d → d.isNaN = false) : s.compare? s = some .eq := by
  cases s with
  | other => exact absurd rfl hother
  | number d => exact Double.compare?_self (hnumber d rfl)
  | null => rfl
  | _ => exact congrArg some Std.ReflCmp.compare_self

/-! ## The same content -/

theorem sameFields_self {xs : Document} (hx : xs.keys.Nodup)
    (hself : ∀ x ∈ xs.map (·.2), x.same x = true) : sameFields xs xs = true := by
  refine sameFields_iff.mpr fun field hmem => ⟨field.2, ?_, ?_⟩
  · exact (Document.get?_eq_some_iff hx).mpr hmem
  · exact hself field.2 (List.mem_map.mpr ⟨field, hmem, rfl⟩)

theorem Value.same_self {v : Value} (hv : v.WellFormed) (hfree : v.NaNFree) : v.same v = true := by
  induction v using Value.induction with
  | step v ih =>
  have hparts : ∀ w ∈ v.parts, w.same w = true := fun w hw =>
    ih w hw (hv.parts w hw) (hfree.part hw)
  cases v with
  | double d => exact Double.numEq_self hfree.number
  | array items => exact sameItems_iff.mpr (List.forall₂_same.mpr hparts)
  | document fields =>
      rw [Value.same, beq_self_eq_true, Bool.true_and]
      exact sameFields_self hv.1 hparts
  | scopedCode source scope =>
      rw [Value.same, beq_self_eq_true, beq_self_eq_true, Bool.true_and, Bool.true_and]
      exact sameFields_self hv.1 hparts
  | _ => simp [Value.same]

/-- Nothing is the same as a value with a NaN in it. -/
theorem Value.NaNFree.of_same {a b : Value} (ha : a.WellFormed) (hb : b.WellFormed)
    (h : a.same b = true) : b.NaNFree := by
  induction b using Value.induction generalizing a with
  | step b ih =>
  -- The symmetric equality turns each part of `b` into one that has its like in `a`.
  have hswapped : b.same a = true := Value.same_symm ha hb h
  have hparts : ∀ w ∈ b.parts, (∃ x : Value, x.WellFormed ∧ x.same w = true) → w.NaNFree := by
    rintro w hw ⟨x, hx, hsame⟩
    exact ih w hw hx (hb.parts w hw) hsame
  have hlike : ∀ {xs ys : Document}, ys.WellFormed → xs.WellFormed → sameFields xs ys = true →
      ∀ w ∈ xs.map (·.2), ∃ y : Value, y.WellFormed ∧ y.same w = true := by
    intro xs ys hys hxs hfields w hw
    obtain ⟨field, hmem, rfl⟩ := List.mem_map.mp hw
    obtain ⟨y, hget, hsame⟩ := sameFields_iff.mp hfields field hmem
    exact ⟨y, hys.get? hget, Value.same_symm (hxs.field hmem) (hys.get? hget) hsame⟩
  revert h
  fun_cases Value.same a b
  case case1 x y =>
      intro h
      refine .intro (fun d hd => ?_) (List.forall_mem_nil _)
      cases hd
      exact Double.isNaN_of_numEq h
  case case3 xs ys =>
      intro h
      refine .intro (by rintro d ⟨⟩) fun w hw => hparts w hw ?_
      obtain ⟨i, hi, rfl⟩ := List.mem_iff_getElem.mp hw
      obtain ⟨hlength, hpairs⟩ := List.forall₂_iff_get.mp (sameItems_iff.mp h)
      have hi' : i < xs.length := hlength ▸ hi
      exact ⟨xs[i], ha.parts _ (List.getElem_mem hi'), hpairs i hi' hi⟩
  case case4 xs ys =>
      simp only [Value.same, Bool.and_eq_true] at hswapped
      exact fun _ => .intro (by rintro d ⟨⟩) fun w hw =>
        hparts w hw (hlike ha hb hswapped.2 w hw)
  case case9 source xs target ys =>
      simp only [Value.same, Bool.and_eq_true] at hswapped
      exact fun _ => .intro (by rintro d ⟨⟩) fun w hw =>
        hparts w hw (hlike ha hb hswapped.2 w hw)
  -- Values of different kinds are not the same.
  case case22 => exact fun h => Bool.noConfusion h
  all_goals exact fun _ => .of_scalar (by rintro d ⟨⟩) rfl

theorem Value.same_self_iff {v : Value} (hv : v.WellFormed) : v.same v = true ↔ v.NaNFree :=
  ⟨.of_same hv hv, same_self hv⟩

/-! ## Strict equality -/

theorem Value.strictEq_self {v : Value} (hv : v.WellFormed) (hfree : v.NaNFree) :
    v.strictEq v = true := by
  induction v using Value.induction with
  | step v ih =>
  have hparts : ∀ w ∈ v.parts, w.strictEq w = true := fun w hw =>
    ih w hw (hv.parts w hw) (hfree.part hw)
  cases v with
  | array items => exact strictItems_iff.mpr (List.forall₂_same.mpr hparts)
  | document fields =>
      refine strictFields_iff.mpr (List.forall₂_same.mpr fun field hmem => ⟨rfl, ?_⟩)
      exact hparts field.2 (List.mem_map.mpr ⟨field, hmem, rfl⟩)
  | _ => exact same_self hv hfree

/-- A value with a NaN in it is not strictly equal to itself either. -/
theorem Value.strictEq_self_iff {v : Value} (hv : v.WellFormed) :
    v.strictEq v = true ↔ v.NaNFree := by
  refine ⟨fun h => ?_, strictEq_self hv⟩
  induction v using Value.induction with
  | step v ih =>
  cases v with
  | array items =>
      have hitems := List.forall₂_same.mp (strictItems_iff.mp h)
      exact .intro (by rintro d ⟨⟩) fun w hw => ih w hw (hv.parts w hw) (hitems w hw)
  | document fields =>
      have hfields := List.forall₂_same.mp (strictFields_iff.mp h)
      refine .intro (by rintro d ⟨⟩) fun w hw => ?_
      obtain ⟨field, hmem, rfl⟩ := List.mem_map.mp hw
      exact ih field.2 hw (hv.parts _ hw) (hfields field hmem).2
  | _ => exact (same_self_iff hv).mp h

/-! ## Loose equality -/

theorem looseItems_iff {xs ys : List Value} :
    looseItems xs ys = true ↔ List.Forall₂ (fun x y => x.looseEq y = true) xs ys := by
  induction xs generalizing ys with
  | nil => cases ys <;> simp [looseItems]
  | cons x xs ih => cases ys <;> simp [looseItems, ih]

theorem looseFields_iff {xs ys : List (String × Value)} :
    looseFields xs ys = true ↔
      ∀ field ∈ xs, ∃ y, Document.get? ys field.1 = some y ∧ field.2.looseEq y = true := by
  induction xs with
  | nil => simp [looseFields]
  | cons field rest ih =>
      rw [looseFields, Bool.and_eq_true, ih, List.forall_mem_cons, Document.get?]
      cases ys.lookup field.1 <;> simp

theorem looseScalarEq_self {v : Value} (hv : v.WellFormed) (hfree : v.NaNFree) :
    looseScalarEq v v = true := by
  have hnumber : ∀ d, v.scalar = .number d → d.isNaN = false := by
    intro d hd
    cases v <;> cases hd
    exact hfree.number
  unfold looseScalarEq
  split
  · exact Value.same_self hv hfree
  · exact Value.same_self hv hfree
  · rename_i hother _
    rw [Scalar.compare?_self hother hnumber]
    rfl

theorem Value.looseEq_self {v : Value} (hv : v.WellFormed) (hfree : v.NaNFree) :
    v.looseEq v = true := by
  induction v using Value.induction with
  | step v ih =>
  have hparts : ∀ w ∈ v.parts, w.looseEq w = true := fun w hw =>
    ih w hw (hv.parts w hw) (hfree.part hw)
  cases v with
  | array items => exact looseItems_iff.mpr (List.forall₂_same.mpr hparts)
  | document fields =>
      rw [Value.looseEq, beq_self_eq_true, Bool.true_and]
      refine looseFields_iff.mpr fun field hmem => ⟨field.2, ?_, ?_⟩
      · exact (Document.get?_eq_some_iff hv.1).mpr hmem
      · exact hparts field.2 (List.mem_map.mpr ⟨field, hmem, rfl⟩)
  | _ => exact looseScalarEq_self hv hfree

end DocStore
