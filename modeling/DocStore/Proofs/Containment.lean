import DocStore.Proofs.Equalities
import Mathlib.Data.Fintype.EquivFin

/-!
# Containing all of a list

What `$all` asks for is said in terms of sets (`HasAll`): every operand is among
the items, or the one operand is an array of the same length and with the same
members. The second alternative is only tested from one side: every member of
the operand is among the items. Where the operand repeats no member this is
enough, since its members then take up all the items
(`sameMembers_of_distinct`). Of two members that are equal one leaves room for an
item that the operand does not have, and nothing takes notice of it
(`Overlooks`). For every operand with a repetition there is such an array
(`exists_overlooked`).
-/

namespace DocStore

/-- The value is strictly equal to one of the items. -/
def Value.IsAmong (v : Value) (items : List Value) : Prop :=
  ∃ item ∈ items, item.strictEq v = true

/-- Each value of the one list is among the other. -/
def SameMembers (xs ys : List Value) : Prop :=
  (∀ x ∈ xs, x.IsAmong ys) ∧ ∀ y ∈ ys, y.IsAmong xs

/-- No two values in the list are equal. -/
def Distinct (xs : List Value) : Prop := xs.Pairwise fun x y => x.strictEq y = false

/-- The value is an array that contains all the operands, or that is the same set as the one
operand and has its length. -/
def HasAll (operands : List Value) (v : Value) : Prop :=
  ∃ items, v = .array items ∧ operands ≠ [] ∧
    ((∀ operand ∈ operands, operand.IsAmong items) ∨
      ∃ set, operands = [.array set] ∧ set.length = items.length ∧ SameMembers set items)

/-- The value is an array of the length of the one operand that contains its members, and
something besides. -/
def Overlooks (operands : List Value) (v : Value) : Prop :=
  ∃ set items, operands = [.array set] ∧ v = .array items ∧ set.length = items.length ∧
    (∀ x ∈ set, x.IsAmong items) ∧ ∃ item ∈ items, ¬ item.IsAmong set

/-! ## What is tested -/

theorem compileValue_all [Pattern.Engine] (settings : Settings) (operands : List Value) :
    compileValue settings (.document [("$all", .array operands)]) =
      .ok (.operators [.all operands]) :=
  compileValue_single (by decide) rfl

theorem containsAll_iff {items operands : List Value} :
    containsAll items operands = true ↔ ∀ x ∈ operands, x.IsAmong items := by
  simp only [containsAll, Value.IsAmong, List.all_eq_true, List.any_eq_true]

theorem allHolds_iff {operands : List Value} {v : Value} :
    allHolds operands v = true ↔ ∃ items, v = .array items ∧ operands ≠ [] ∧
      ((∀ operand ∈ operands, operand.IsAmong items) ∨
        ∃ set, operands = [.array set] ∧ set.length = items.length ∧
          ∀ x ∈ set, x.IsAmong items) := by
  fun_cases allHolds operands v
  case case1 items set =>
      simp only [Bool.or_eq_true, Bool.and_eq_true, beq_iff_eq, containsAll_iff]
      constructor
      · rintro (hall | ⟨hlength, hamong⟩)
        · exact ⟨items, rfl, List.cons_ne_nil _ _, Or.inl hall⟩
        · exact ⟨items, rfl, List.cons_ne_nil _ _, Or.inr ⟨set, rfl, hlength, hamong⟩⟩
      · rintro ⟨_, ⟨⟩, -, hall | ⟨_, ⟨⟩, hlength, hamong⟩⟩
        · exact Or.inl hall
        · exact Or.inr ⟨hlength, hamong⟩
  case case2 items hother =>
      rw [Bool.and_eq_true, containsAll_iff, Bool.not_eq_true', List.isEmpty_eq_false_iff]
      constructor
      · rintro ⟨hoperands, hall⟩
        exact ⟨items, rfl, hoperands, Or.inl hall⟩
      · rintro ⟨_, ⟨⟩, hoperands, hall | ⟨set, rfl, -⟩⟩
        · exact ⟨hoperands, hall⟩
        · exact (hother set rfl).elim
  case case3 harray _ =>
      refine iff_of_false Bool.false_ne_true ?_
      rintro ⟨items, rfl, -⟩
      exact harray items rfl

/-- From one side or from both. -/
theorem allHolds_iff_hasAll {operands : List Value} {v : Value} :
    allHolds operands v = true ↔ HasAll operands v ∨ Overlooks operands v := by
  rw [allHolds_iff]
  constructor
  · rintro ⟨items, rfl, hoperands, hall | ⟨set, rfl, hlength, hamong⟩⟩
    · exact Or.inl ⟨items, rfl, hoperands, Or.inl hall⟩
    · by_cases hitems : ∀ item ∈ items, item.IsAmong set
      · exact Or.inl ⟨items, rfl, hoperands, Or.inr ⟨set, rfl, hlength, hamong, hitems⟩⟩
      · push Not at hitems
        exact Or.inr ⟨set, items, rfl, rfl, hlength, hamong, hitems⟩
  · rintro (⟨items, rfl, hoperands, hall | ⟨set, rfl, hlength, hsame⟩⟩ |
      ⟨set, items, rfl, rfl, hlength, hamong, -⟩)
    · exact ⟨items, rfl, hoperands, Or.inl hall⟩
    · exact ⟨items, rfl, hoperands, Or.inr ⟨set, rfl, hlength, hsame.1⟩⟩
    · exact ⟨items, rfl, List.cons_ne_nil _ _, Or.inr ⟨set, rfl, hlength, hamong⟩⟩

/-! ## Without repetitions -/

/-- What is among other values has no NaN in it, as nothing is equal to a NaN. -/
theorem Value.IsAmong.nanFree {v : Value} {items : List Value} (hv : v.WellFormed)
    (hitems : ∀ item ∈ items, item.WellFormed) (h : v.IsAmong items) : v.NaNFree := by
  obtain ⟨item, hitem, heq⟩ := h
  have hback : v.strictEq item = true := strictEq_symm (hitems item hitem) hv heq
  exact (strictEq_self_iff hv).mp (strictEq_trans hback heq)

/-- Where each member of the first list has one in the second, and no two have the same one, the
second list has no other members unless it is longer. -/
theorem forall_matched_of_length {α : Type} {R : α → α → Prop} :
    ∀ {xs ys : List α}, ys.length ≤ xs.length → (∀ x ∈ xs, ∃ y ∈ ys, R x y) →
      (xs.Pairwise fun x x' => ∀ y ∈ ys, R x y → ¬ R x' y) → ∀ y ∈ ys, ∃ x ∈ xs, R x y
  | [], ys, hlength, _, _ => by
      obtain rfl := List.eq_nil_of_length_eq_zero (Nat.le_zero.mp hlength)
      exact List.forall_mem_nil _
  | x :: xs, ys, hlength, hmatch, hapart => by
      obtain ⟨hfirst, hrest⟩ := List.pairwise_cons.mp hapart
      obtain ⟨y, hy, hxy⟩ := hmatch x (List.mem_cons_self ..)
      obtain ⟨before, after, rfl⟩ := List.append_of_mem hy
      have hkept : ∀ z ∈ before ++ after, z ∈ before ++ y :: after := fun z hz =>
        ((List.sublist_cons_self y after).append_left before).subset hz
      -- The others have theirs among what is left when `y` is taken away.
      have hothers : ∀ x' ∈ xs, ∃ z ∈ before ++ after, R x' z := by
        intro x' hx'
        obtain ⟨z, hz, hxz⟩ := hmatch x' (List.mem_cons_of_mem _ hx')
        have hne : z ≠ y := by
          rintro rfl
          exact hfirst x' hx' z hz hxy hxz
        exact ⟨z, by simpa [hne] using hz, hxz⟩
      have hshorter : (before ++ after).length ≤ xs.length := by
        simp only [List.length_append, List.length_cons] at hlength ⊢
        omega
      have hleft := forall_matched_of_length hshorter hothers
        (hrest.imp fun h z hz => h z (hkept z hz))
      intro z hz
      by_cases hzy : z = y
      · exact ⟨x, List.mem_cons_self .., hzy ▸ hxy⟩
      · obtain ⟨x', hx', hxz⟩ := hleft z (by simpa [hzy] using hz)
        exact ⟨x', List.mem_cons_of_mem _ hx', hxz⟩

theorem sameMembers_of_distinct {set items : List Value} (hset : ∀ x ∈ set, x.WellFormed)
    (hitems : ∀ item ∈ items, item.WellFormed) (hlength : set.length = items.length)
    (hamong : ∀ x ∈ set, x.IsAmong items) (hdistinct : Distinct set) : SameMembers set items := by
  refine ⟨hamong, fun item hitem => ?_⟩
  have hapart : set.Pairwise fun x x' =>
      ∀ item ∈ items, item.strictEq x = true → ¬ item.strictEq x' = true := by
    refine hdistinct.imp_of_mem fun {x x'} hx _ hne item hitem h h' => ?_
    have heq : x.strictEq x' = true :=
      Value.strictEq_trans (Value.strictEq_symm (hitems item hitem) (hset x hx) h) h'
    exact Bool.false_ne_true (hne.symm.trans heq)
  obtain ⟨x, hx, h⟩ := forall_matched_of_length hlength.ge hamong hapart item hitem
  exact ⟨x, hx, Value.strictEq_symm (hitems item hitem) (hset x hx) h⟩

/-! ## With a repetition -/

/-- No item is equal to the array that it is in. -/
theorem Value.strictEq_array_of_mem {v : Value} :
    ∀ {items : List Value}, v ∈ items → v.strictEq (.array items) = false := by
  induction v using Value.induction with
  | step v ih =>
  intro items hmem
  cases v with
  | array xs =>
      -- If it were, its own item in the place where it stands would be equal to it.
      refine Bool.eq_false_iff.mpr fun h => ?_
      obtain ⟨i, hi, hplace⟩ := List.mem_iff_getElem.mp hmem
      obtain ⟨hlength, hpairs⟩ := List.forall₂_iff_get.mp (strictItems_iff.mp h)
      have hi' : i < xs.length := hlength ▸ hi
      have hitem : xs[i].strictEq items[i] = true := hpairs i hi' hi
      rw [hplace, ih xs[i] (List.getElem_mem hi') (List.getElem_mem hi')] at hitem
      cases hitem
  | _ => rfl

theorem Value.eq_of_strictEq_string {v : Value} {s : String} (h : v.strictEq (.string s) = true) :
    v = .string s := by
  cases v with
  | string t => exact congrArg _ (beq_iff_eq.mp h)
  | _ => cases h

theorem exists_string_not_among (values : List Value) :
    ∃ s, ¬ (Value.string s).IsAmong values := by
  obtain ⟨s, hs⟩ := Infinite.exists_notMem_finset (values.map Value.identifierText).toFinset
  refine ⟨s, ?_⟩
  rintro ⟨v, hv, heq⟩
  obtain rfl := Value.eq_of_strictEq_string heq
  exact hs (List.mem_toFinset.mpr (List.mem_map_of_mem hv))

theorem exists_repetition {xs : List Value} (h : ¬ Distinct xs) :
    ∃ before y after, xs = before ++ y :: after ∧ y.IsAmong before := by
  rw [Distinct, List.pairwise_iff_forall_sublist] at h
  push Not at h
  obtain ⟨x, y, hpair, hxy⟩ := h
  obtain ⟨front, back, rfl, hx, hy⟩ := List.cons_sublist_iff.mp hpair
  obtain ⟨between, after, rfl⟩ := List.append_of_mem (List.singleton_sublist.mp hy)
  refine ⟨front ++ between, y, after, (List.append_assoc ..).symm, x, ?_, ?_⟩
  · exact List.mem_append_left between hx
  · exact Bool.ne_false_iff.mp hxy

/-- A member that is equal to an earlier one can give way to anything else. -/
theorem exists_overlooked {set : List Value} (hset : (Value.array set).WellFormed)
    (hfree : (Value.array set).NaNFree) (hrepeats : ¬ Distinct set) :
    ∃ v : Value, v.WellFormed ∧ v.NaNFree ∧ Overlooks [.array set] v ∧ ¬ HasAll [.array set] v := by
  obtain ⟨s, hs⟩ := exists_string_not_among set
  obtain ⟨before, y, after, rfl, hy⟩ := exists_repetition hrepeats
  have hitems : ∀ item ∈ before ++ Value.string s :: after,
      item = .string s ∨ item ∈ before ++ y :: after := by
    intro item hitem
    simp only [List.mem_append, List.mem_cons] at hitem ⊢
    tauto
  have hwell : ∀ x ∈ before ++ y :: after, x.WellFormed := hset.parts
  have hamong : ∀ x ∈ before ++ y :: after, x.IsAmong (before ++ .string s :: after) := by
    intro x hx
    have hself : x.strictEq x = true := Value.strictEq_self (hwell x hx) (hfree.part hx)
    rcases List.mem_append.mp hx with hbefore | hrest
    · exact ⟨x, List.mem_append_left _ hbefore, hself⟩
    · rcases List.mem_cons.mp hrest with rfl | hafter
      · obtain ⟨x', hx', heq⟩ := hy
        exact ⟨x', List.mem_append_left _ hx', heq⟩
      · exact ⟨x, List.mem_append_right _ (List.mem_cons_of_mem _ hafter), hself⟩
  have hstring : Value.string s ∈ before ++ Value.string s :: after :=
    List.mem_append_right _ (List.mem_cons_self ..)
  refine ⟨.array (before ++ .string s :: after), ?_, ?_, ?_, ?_⟩
  · exact allWellFormed_iff.mpr fun item hitem =>
      (hitems item hitem).elim (fun h => h ▸ trivial) (hwell item)
  · refine .intro (by rintro d ⟨⟩) fun item hitem => ?_
    rcases hitems item hitem with rfl | hmem
    · exact .of_scalar (by rintro d ⟨⟩) rfl
    · exact hfree.part hmem
  · exact ⟨_, _, rfl, rfl, by simp, hamong, _, hstring, hs⟩
  · rintro ⟨items, hitems', -, hall | ⟨_, ⟨⟩, -, hsame⟩⟩
    · obtain rfl := Value.array.inj hitems'
      obtain ⟨item, hitem, heq⟩ := hall _ (List.mem_singleton_self _)
      rcases hitems item hitem with rfl | hmem
      · cases heq
      · rw [Value.strictEq_array_of_mem hmem] at heq
        cases heq
    · obtain rfl := Value.array.inj hitems'
      exact hs (hsame.2 _ hstring)

/-! ## Set semantics -/

/-- `$all` accepts every array that has all that is asked for. What else it accepts is an array
beside which the one operand repeats a member, and there is such an array for every operand with a
repetition, unless nothing at all has its members because one of them is NaN. -/
theorem all_as_sets_iff [Pattern.Engine] (settings : Settings) {operands : List Value}
    (hoperands : (Value.array operands).WellFormed) :
    ∃ c, compileValue settings (.document [("$all", .array operands)]) = .ok c ∧
      c.holds none = false ∧
      (∀ v, c.holds (some v) = true ↔ HasAll operands v ∨ Overlooks operands v) ∧
      ((∀ v : Value, v.WellFormed → v.NaNFree → (c.holds (some v) = true ↔ HasAll operands v)) ↔
        ∀ set, operands = [.array set] → (Value.array set).NaNFree → Distinct set) := by
  have htest : ∀ v, (Constraint.operators [.all operands]).holds v = true ↔
      allHolds operands (v.getD .null) = true := by
    simp [Constraint.holds, operatorsHold, Operator.holds]
  have hiff : ∀ v, (Constraint.operators [.all operands]).holds (some v) = true ↔
      HasAll operands v ∨ Overlooks operands v := fun v => (htest _).trans allHolds_iff_hasAll
  have hmissing : ¬ allHolds operands .null = true := by
    rw [allHolds_iff]
    rintro ⟨items, ⟨⟩, -⟩
  refine ⟨_, compileValue_all settings operands, ?_, hiff, ?_, ?_⟩
  · exact Bool.eq_false_iff.mpr (mt (htest none).mp hmissing)
  · rintro hsets set rfl hfree
    by_contra hrepeats
    have hset : (Value.array set).WellFormed := hoperands.parts _ (List.mem_singleton_self _)
    obtain ⟨v, hv, hvFree, hoverlooks, hnot⟩ := exists_overlooked hset hfree hrepeats
    exact hnot ((hsets v hv hvFree).mp ((hiff v).mpr (Or.inr hoverlooks)))
  · intro hdistinct v hv _
    refine (hiff v).trans (or_iff_left ?_)
    rintro ⟨set, items, rfl, rfl, hlength, hamong, item, hitem, hnot⟩
    have hset : (Value.array set).WellFormed := hoperands.parts _ (List.mem_singleton_self _)
    have hfree : (Value.array set).NaNFree :=
      .intro (by rintro d ⟨⟩) fun x hx => (hamong x hx).nanFree (hset.parts x hx) hv.parts
    have hsame := sameMembers_of_distinct hset.parts hv.parts hlength hamong
      (hdistinct set rfl hfree)
    exact hnot (hsame.2 item hitem)

/-- An array of both widths of integer, in another order. -/
theorem all_as_sets_two :
    (Value.array [.array [.int32 1, .string "a"]]).WellFormed ∧
      ∃ c, compileValue .default
          (.document [("$all", .array [.array [.int32 1, .string "a"]])]) = .ok c ∧
        (c.holds (some (.array [.string "a", .int64 1])) = true ↔
          HasAll [.array [.int32 1, .string "a"]] (.array [.string "a", .int64 1])) := by
  have hoperands : (Value.array [.array [.int32 1, .string "a"]]).WellFormed := by
    simp [Value.WellFormed, allWellFormed]
  have hv : (Value.array [.string "a", .int64 1]).WellFormed := by
    simp [Value.WellFormed, allWellFormed]
  have hfree : (Value.array [.string "a", .int64 1]).NaNFree :=
    (Value.same_self_iff hv).mp (by decide)
  have hdistinct : Distinct [.int32 1, .string "a"] := List.pairwise_pair.mpr (by decide)
  obtain ⟨c, hc, -, -, hsets⟩ := all_as_sets_iff .default hoperands
  refine ⟨hoperands, c, hc, hsets.mpr ?_ _ hv hfree⟩
  rintro set ⟨⟩ -
  exact hdistinct

/-- Two equal members leave room for an item that is not asked for. -/
theorem not_all_as_sets :
    ∃ c, compileValue .default
        (.document [("$all", .array [.array [.int32 1, .int32 1]])]) = .ok c ∧
      c.holds (some (.array [.int32 1, .int32 2])) = true ∧
      ¬ HasAll [.array [.int32 1, .int32 1]] (.array [.int32 1, .int32 2]) := by
  refine ⟨_, compileValue_all .default _, by decide, ?_⟩
  rintro ⟨items, ⟨⟩, -, hall | ⟨set, ⟨⟩, -, hsame⟩⟩
  · obtain ⟨item, hitem, heq⟩ := hall _ (List.mem_singleton_self _)
    simp only [List.mem_cons, List.not_mem_nil, or_false] at hitem
    rcases hitem with rfl | rfl <;> cases heq
  · obtain ⟨x, hx, heq⟩ := hsame.2 (.int32 2) (by simp)
    simp only [List.mem_cons, List.not_mem_nil, or_false, or_self] at hx
    subst hx
    revert heq
    decide

end DocStore
