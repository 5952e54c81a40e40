import DocStore.Proofs.SortOrder
import DocStore.Proofs.ReadBack

/-!
# Range operators

The four range operators are one comparison, looked at from two sides
(`Side.key`). What a value is to an operand the operand is to the value the
other way round (`Value.compare?_swap`), so an operator turns into its opposite
when the two change places (`comparesTo_swap`), and no value lies on both sides
of an operand (`comparesTo_excludes`).

All this is said of values that are no arrays. An array is asked through its
items, and those among them that are arrays again have no say
(`compareHolds_items`): with an array on the one side the operators are not dual.
-/

namespace DocStore

variable {side : Side} {inclusive : Bool} {operand v : Value}

/-- The value satisfies a document of a single operator. -/
def Value.Satisfies [Pattern.Engine] (settings : Settings) (v : Value) (key : String)
    (operand : Value) : Prop :=
  ∃ c, compileValue settings (.document [(key, operand)]) = .ok c ∧ c.holds (some v) = true

/-- The name of a range operator. -/
def Side.key : Side → Bool → String
  | .above, false => "$gt"
  | .above, true => "$gte"
  | .below, false => "$lt"
  | .below, true => "$lte"

def Side.opposite : Side → Side
  | .above => .below
  | .below => .above

theorem compileValue_range [Pattern.Engine] (settings : Settings) (side : Side) (inclusive : Bool)
    (operand : Value) :
    compileValue settings (.document [(side.key inclusive, operand)]) =
      .ok (.operators [.compare side inclusive operand]) := by
  cases side <;> cases inclusive <;>
    exact compileValue_single (by decide) (by cases operand <;> rfl)

theorem Value.satisfies_range_iff [Pattern.Engine] {settings : Settings} :
    v.Satisfies settings (side.key inclusive) operand ↔
      compareHolds side inclusive operand v = true := by
  simp [Satisfies, compileValue_range, Constraint.holds, operatorsHold, Operator.holds]

/-! ## From the other side -/

theorem Value.compare?_swap (a b : Value) : b.compare? a = (a.compare? b).map .swap :=
  Scalar.compare?_swap a.scalar b.scalar

theorem Side.admits_swap (side : Side) (inclusive : Bool) (o : Ordering) :
    side.opposite.admits inclusive o.swap = side.admits inclusive o := by
  cases side <;> cases o <;> rfl

theorem comparesTo_swap (side : Side) (inclusive : Bool) (a b : Value) :
    comparesTo side.opposite inclusive a b = comparesTo side inclusive b a := by
  unfold comparesTo
  rw [Value.compare?_swap a b, Option.any_map]
  exact congrArg (Option.any · _) (funext (side.admits_swap inclusive))

/-- What lies strictly on one side does not lie on the other, not even at the border. -/
theorem comparesTo_excludes (h : comparesTo side false operand v = true) :
    comparesTo side.opposite true operand v = false := by
  unfold comparesTo at *
  cases hv : v.compare? operand with
  | none => rfl
  | some o =>
      rw [hv] at h
      cases side <;> cases o <;> first | rfl | cases h

/-- The border belongs to both sides. -/
theorem comparesTo_inclusive (side : Side) (operand v : Value) :
    comparesTo side true operand v = true ↔
      comparesTo side false operand v = true ∨
        comparesTo side true operand v = true ∧ comparesTo side.opposite true operand v = true := by
  unfold comparesTo
  cases v.compare? operand with
  | none => simp
  | some o => cases side <;> cases o <;> decide

/-! ## Items -/

theorem compareHolds_of_not_array (h : v.isArray = false) :
    compareHolds side inclusive operand v = comparesTo side inclusive operand v := by
  cases v with
  | array items => cases h
  | _ => rfl

/-- An array compares with nothing. -/
theorem comparesTo_of_array (h : v.isArray = true) :
    comparesTo side inclusive operand v = false := by
  cases v with
  | array items =>
      have hscalar : Scalar.other.compare? operand.scalar = none := by
        cases operand.scalar <;> rfl
      exact congrArg (Option.any _) hscalar
  | _ => cases h

theorem compareHolds_items {items : List Value} (h : operand.isArray = false) :
    compareHolds side inclusive operand (.array items) = true ↔
      ∃ item ∈ items, item.isArray = false ∧ compareHolds side inclusive operand item = true := by
  rw [compareHolds, h, if_neg Bool.false_ne_true, List.any_eq_true]
  refine exists_congr fun item => and_congr_right fun _ => ?_
  cases hitem : item.isArray with
  | false => rw [compareHolds_of_not_array hitem, eq_self_iff_true, true_and]
  | true => simp [comparesTo_of_array hitem]

/-! ## Duality -/

/-- Comparing the other way round turns the answer around. So `$gt` is dual to `$lt` and `$gte` to
`$lte`, `$gt` and `$lte` exclude one another, and `$gte` adds to `$gt` the border that it shares
with `$lte`; an array satisfies an operator through an item that is no array. -/
theorem Value.ranges_dual [Pattern.Engine] (settings : Settings) (a b : Value) :
    b.compare? a = (a.compare? b).map .swap ∧
    (∀ side inclusive, ∃ c,
      compileValue settings (.document [(Side.key side inclusive, b)]) = .ok c) ∧
    (a.isArray = false → b.isArray = false →
      (a.Satisfies settings "$gt" b ↔ b.Satisfies settings "$lt" a) ∧
      (a.Satisfies settings "$gte" b ↔ b.Satisfies settings "$lte" a) ∧
      ¬ (a.Satisfies settings "$gt" b ∧ a.Satisfies settings "$lte" b) ∧
      (a.Satisfies settings "$gte" b ↔ a.Satisfies settings "$gt" b ∨
        a.Satisfies settings "$gte" b ∧ a.Satisfies settings "$lte" b)) ∧
    (∀ items, a = .array items → b.isArray = false → ∀ side inclusive,
      (a.Satisfies settings (Side.key side inclusive) b ↔
        ∃ item ∈ items, item.isArray = false ∧
          item.Satisfies settings (Side.key side inclusive) b)) := by
  refine ⟨compare?_swap a b,
    fun side inclusive => ⟨_, compileValue_range settings side inclusive b⟩, fun ha hb => ?_, ?_⟩
  · have hleft : ∀ side inclusive, a.Satisfies settings (Side.key side inclusive) b ↔
        comparesTo side inclusive b a = true := fun side inclusive => by
      rw [satisfies_range_iff, compareHolds_of_not_array ha]
    have hright : ∀ side inclusive, b.Satisfies settings (Side.key side inclusive) a ↔
        comparesTo side inclusive a b = true := fun side inclusive => by
      rw [satisfies_range_iff, compareHolds_of_not_array hb]
    have hdual : ∀ side inclusive, a.Satisfies settings (Side.key side inclusive) b ↔
        b.Satisfies settings (side.opposite.key inclusive) a := fun side inclusive => by
      rw [hleft, hright, comparesTo_swap]
    refine ⟨hdual .above false, hdual .above true, ?_, ?_⟩
    · rintro ⟨habove, hbelow⟩
      have hnot := comparesTo_excludes ((hleft .above false).mp habove)
      exact Bool.false_ne_true (hnot.symm.trans ((hleft .below true).mp hbelow))
    · have hborder := comparesTo_inclusive .above b a
      exact (hleft .above true).trans (hborder.trans
        (or_congr (hleft .above false).symm
          (and_congr (hleft .above true).symm (hleft .below true).symm)))
  · rintro items rfl hb side inclusive
    simp only [satisfies_range_iff]
    exact compareHolds_items hb

/-- A long integer, a text that spells a number with blanks around it, and an array with the
integer among its items. -/
theorem Value.ranges_dual_spelled :
    let three : Value := .int64 3
    let spelled : Value := .string " 2.5 "
    let listed : Value := .array [.array [three], .boolean true, three]
    three.isArray = false ∧ spelled.isArray = false ∧
      spelled.Satisfies .default "$lt" three ∧ ¬ three.Satisfies .default "$lte" spelled ∧
      listed.Satisfies .default "$gt" spelled := by
  intro three spelled listed
  have habove : three.Satisfies .default (Side.key .above false) spelled :=
    satisfies_range_iff.mpr (by decide)
  obtain ⟨-, -, hscalars, -⟩ := ranges_dual .default three spelled
  obtain ⟨-, -, -, hitems⟩ := ranges_dual .default listed spelled
  obtain ⟨hdual, -, hexclude, -⟩ := hscalars rfl rfl
  refine ⟨rfl, rfl, hdual.mp habove, fun hbelow => hexclude ⟨habove, hbelow⟩, ?_⟩
  exact (hitems _ rfl rfl .above false).mpr ⟨three, by simp, rfl, habove⟩

/-- Two arrays do not compare, and neither has a say in the other. -/
example : compareHolds .above true (.array []) (.array []) = false := by decide

end DocStore
