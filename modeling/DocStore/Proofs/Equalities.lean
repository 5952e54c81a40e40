import DocStore.Proofs.Literals
import DocStore.Proofs.ReadBack
import DocStore.Proofs.Reordering
import DocStore.Proofs.SortOrder

/-!
# How the equalities fit together

Loose equality does not depend on the order of its arguments
(`Value.looseEq_symm`), and not on the order of keys in either of them
(`Reordering.OfLiteral.looseEq_both`). Strict equality is transitive besides
(`Value.strictEq_trans`), and what is strictly equal is loosely equal
(`Value.looseEq_of_strictEq`). So `$eq` and `$ne` with one operand never hold of
the same value.

Loose equality is not transitive: the text `1` and the text `1.0` are both equal
to the number, and not to each other.
-/

namespace DocStore

variable {a b c : Value}

/-! ## Transitivity -/

theorem Double.numEq_trans {x y z : Double} (hxy : x.numEq y = true) (hyz : y.numEq z = true) :
    x.numEq z = true := by
  simp only [numEq, compare?, beq_iff_eq] at hxy hyz ⊢
  split at hxy
  · cases hxy
  · split at hyz
    · cases hyz
    · rename_i hx hy
      have hnumbers : (x.isNaN || z.isNaN) = false := by simp_all
      have hkeys : compare x.key z.key = .eq :=
        Std.TransCmp.eq_trans (Option.some.inj hxy) (Option.some.inj hyz)
      rw [hnumbers, if_neg Bool.false_ne_true, hkeys]

/-- A pairing followed by another one, where the relations go on from the members of the first
two lists. -/
theorem forall₂_trans {α : Type} {R S T : α → α → Prop} {xs ys zs : List α}
    (hT : ∀ x ∈ xs, ∀ y ∈ ys, ∀ z, R x y → S y z → T x z) (hxy : List.Forall₂ R xs ys)
    (hyz : List.Forall₂ S ys zs) : List.Forall₂ T xs zs := by
  induction hxy generalizing zs with
  | nil =>
      cases hyz
      exact .nil
  | cons hfirst _ ih =>
      cases hyz with
      | cons hsecond hrest =>
          refine .cons (hT _ (List.mem_cons_self ..) _ (List.mem_cons_self ..) _ hfirst hsecond) ?_
          exact ih (fun x hx y hy => hT x (List.mem_cons_of_mem _ hx) y (List.mem_cons_of_mem _ hy))
            hrest

theorem sameFields_trans {xs ys zs : Document}
    (hsame : ∀ x ∈ xs.map (·.2), ∀ y z, x.same y = true → y.same z = true → x.same z = true)
    (hxy : sameFields xs ys = true) (hyz : sameFields ys zs = true) : sameFields xs zs = true := by
  refine sameFields_iff.mpr fun field hmem => ?_
  obtain ⟨y, hy, hfirst⟩ := sameFields_iff.mp hxy field hmem
  obtain ⟨z, hz, hsecond⟩ := sameFields_iff.mp hyz _ (Document.mem_of_get?_eq_some hy)
  exact ⟨z, hz, hsame _ (List.mem_map.mpr ⟨field, hmem, rfl⟩) y z hfirst hsecond⟩

theorem Value.same_trans (hab : a.same b = true) (hbc : b.same c = true) : a.same c = true := by
  induction a using Value.induction generalizing b c with
  | step a ih =>
  have hparts : ∀ x ∈ a.parts, ∀ y z, x.same y = true → y.same z = true → x.same z = true :=
    fun x hx y z => ih x hx
  revert hab hbc
  fun_cases Value.same a b
  case case1 x y =>
      cases c with
      | double z => exact Double.numEq_trans
      | _ => exact fun _ h => Bool.noConfusion h
  case case3 xs ys =>
      cases c with
      | array zs =>
          intro hxy hyz
          exact sameItems_iff.mpr
            (forall₂_trans (fun x hx y _ => hparts x hx y) (sameItems_iff.mp hxy)
              (sameItems_iff.mp hyz))
      | _ => exact fun _ h => Bool.noConfusion h
  case case4 xs ys =>
      cases c with
      | document zs =>
          simp only [Value.same, Bool.and_eq_true, beq_iff_eq]
          rintro ⟨hlength, hxy⟩ ⟨hlength', hyz⟩
          exact ⟨hlength.trans hlength', sameFields_trans hparts hxy hyz⟩
      | _ => exact fun _ h => Bool.noConfusion h
  case case9 source xs target ys =>
      cases c with
      | scopedCode other zs =>
          simp only [Value.same, Bool.and_eq_true, beq_iff_eq]
          rintro ⟨⟨hsource, hlength⟩, hxy⟩ ⟨⟨hsource', hlength'⟩, hyz⟩
          exact ⟨⟨hsource.trans hsource', hlength.trans hlength'⟩, sameFields_trans hparts hxy hyz⟩
      | _ => exact fun _ h => Bool.noConfusion h
  case case22 => exact fun h => Bool.noConfusion h
  -- Any other value is the same only as itself.
  all_goals simp +contextual only [Bool.and_eq_true, beq_iff_eq, implies_true]

/-! ### Strict equality -/

/-- The integer that a value is, in whichever width. -/
def Value.integer? : Value → Option Int
  | int32 n => some n.toInt
  | int64 n => some n.toInt
  | _ => none

theorem Value.strictEq_integer_iff {n : Int} (h : a.integer? = some n) :
    a.strictEq b = true ↔ b.integer? = some n := by
  have hword : ∀ {x y : Int64}, (x == y) = true ↔ y.toInt = x.toInt :=
    fun {x y} => beq_iff_eq.trans (eq_comm.trans Int64.toInt_inj.symm)
  cases a with
  | int32 x =>
      obtain rfl := Option.some.inj h
      cases b with
      | int32 y =>
          simp only [strictEq, same, integer?, Option.some.injEq, beq_iff_eq, Int32.toInt_inj]
          exact eq_comm
      | int64 y =>
          simp only [strictEq, integer?, Option.some.injEq, hword, Int32.toInt_toInt64]
      | _ => exact iff_of_false Bool.false_ne_true (Option.some_ne_none _).symm
  | int64 x =>
      obtain rfl := Option.some.inj h
      cases b with
      | int32 y =>
          simp only [strictEq, integer?, Option.some.injEq, hword, Int32.toInt_toInt64]
      | int64 y => simp only [strictEq, same, integer?, Option.some.injEq, hword]
      | _ => exact iff_of_false Bool.false_ne_true (Option.some_ne_none _).symm
  | _ => cases h

theorem Value.strictEq_of_same (harray : a.isArray = false) (hdocument : a.isDocument = false)
    (h : a.same b = true) : a.strictEq b = true := by
  fun_cases Value.strictEq a b
  case case1 | case2 => cases h
  case case3 => cases harray
  case case4 => cases hdocument
  case case5 => exact h

theorem Value.strictEq_trans (hab : a.strictEq b = true) (hbc : b.strictEq c = true) :
    a.strictEq c = true := by
  induction a using Value.induction generalizing b c with
  | step a ih =>
  have hparts : ∀ x ∈ a.parts, ∀ y z,
      x.strictEq y = true → y.strictEq z = true → x.strictEq z = true :=
    fun x hx y z => ih x hx
  cases hinteger : a.integer? with
  | some n =>
      rw [strictEq_integer_iff hinteger] at hab ⊢
      exact (strictEq_integer_iff hab).mp hbc
  | none =>
      cases a with
      | int32 | int64 => cases hinteger
      | array xs =>
          cases b with
          | array ys =>
              cases c with
              | array zs =>
                  exact strictItems_iff.mpr
                    (forall₂_trans (fun x hx y _ => hparts x hx y) (strictItems_iff.mp hab)
                      (strictItems_iff.mp hbc))
              | _ => cases hbc
          | _ => cases hab
      | document xs =>
          cases b with
          | document ys =>
              cases c with
              | document zs =>
                  refine strictFields_iff.mpr
                    (forall₂_trans ?_ (strictFields_iff.mp hab) (strictFields_iff.mp hbc))
                  rintro f hf g - h ⟨hkey, hvalue⟩ ⟨hkey', hvalue'⟩
                  have hpart : f.2 ∈ xs.map (·.2) := List.mem_map.mpr ⟨f, hf, rfl⟩
                  exact ⟨hkey.trans hkey', hparts f.2 hpart g.2 h.2 hvalue hvalue'⟩
              | _ => cases hbc
          | _ => cases hab
      | _ =>
          -- Strictly equal is the same here, and then `b` is of the same kind.
          refine strictEq_of_same rfl rfl (same_trans hab ?_)
          cases b <;> first | exact hbc | cases hab

/-! ## Loose equality from both sides -/

theorem looseScalarEq_of_other (h : a.scalar = .other ∨ b.scalar = .other) :
    looseScalarEq a b = a.same b := by
  unfold looseScalarEq
  split
  · rfl
  · rfl
  · rename_i ha hb
    exact (h.elim ha hb).elim

theorem looseScalarEq_of_ordered (ha : a.scalar ≠ .other) (hb : b.scalar ≠ .other) :
    looseScalarEq a b = (a.compare? b == some .eq) := by
  unfold looseScalarEq
  split
  · rename_i hother
    exact absurd hother ha
  · rename_i hother _
    exact absurd hother hb
  · rfl

theorem looseScalarEq_symm (ha : a.WellFormed) (hb : b.WellFormed)
    (h : looseScalarEq a b = true) : looseScalarEq b a = true := by
  by_cases hother : a.scalar = .other ∨ b.scalar = .other
  · rw [looseScalarEq_of_other hother] at h
    rw [looseScalarEq_of_other hother.symm]
    exact Value.same_symm ha hb h
  · obtain ⟨hleft, hright⟩ := not_or.mp hother
    rw [looseScalarEq_of_ordered hleft hright, beq_iff_eq] at h
    rw [looseScalarEq_of_ordered hright hleft, Value.compare?, Scalar.compare?_swap,
      ← Value.compare?, h]
    rfl

/-- Distinct names on both sides turn the pairing of fields around. -/
theorem looseFields_swap {xs ys : Document} (hx : xs.WellFormed) (hy : ys.WellFormed)
    (hlength : xs.length = ys.length)
    (hloose : ∀ x ∈ xs.map (·.2), ∀ y, y.WellFormed → x.looseEq y = true → y.looseEq x = true)
    (h : looseFields xs ys = true) : looseFields ys xs = true := by
  have hpaired := Document.paired_swap (R := fun x y => x.looseEq y = true)
    hx.nodup hy.nodup hlength (looseFields_iff.mp h)
  refine looseFields_iff.mpr fun field hmem => ?_
  obtain ⟨x, hget, hxy⟩ := hpaired field hmem
  exact ⟨x, hget, hloose x (Document.mem_values_of_get? hget) _ (hy.field hmem) hxy⟩

theorem Value.looseEq_symm (ha : a.WellFormed) (hb : b.WellFormed) :
    a.looseEq b = true → b.looseEq a = true := by
  induction a using Value.induction generalizing b with
  | step a ih =>
  have hparts : ∀ x ∈ a.parts, ∀ y, y.WellFormed → x.looseEq y = true → y.looseEq x = true :=
    fun x hx y hy => ih x hx (ha.parts x hx) hy
  fun_cases Value.looseEq a b
  case case1 xs ys =>
      simp only [Value.looseEq, Bool.and_eq_true, beq_iff_eq]
      rintro ⟨hlength, h⟩
      exact ⟨hlength.symm, looseFields_swap ha hb hlength hparts h⟩
  case case2 xs ys =>
      intro h
      refine looseItems_iff.mpr (forall₂_swap (fun x hx y hy => ?_) (looseItems_iff.mp h))
      exact hparts x hx y (hb.parts y hy)
  case case3 | case4 => exact id
  case case9 hdocument harray hdocument' harray' hdocuments harrays hhex htext =>
      intro h
      fun_cases Value.looseEq b a
      case case1 => exact (hdocument _ rfl).elim
      case case2 => exact (harray _ rfl).elim
      case case3 => exact (htext _ _ rfl rfl).elim
      case case4 => exact (hhex _ _ rfl rfl).elim
      case case5 => exact (hdocument' _ rfl).elim
      case case6 => exact (harray' _ rfl).elim
      case case7 => exact (hdocument _ rfl).elim
      case case8 => exact (harray _ rfl).elim
      case case9 => exact looseScalarEq_symm ha hb h
  -- An array or a document is equal to nothing of another kind.
  all_goals exact fun h => Bool.noConfusion h

/-! ## From strict to loose -/

theorem Value.sameFamily_of_strictEq (h : a.strictEq b = true) : a.sameFamily b = true := by
  revert h
  fun_cases Value.strictEq a b
  case case1 | case2 | case3 | case4 => exact fun _ => rfl
  case case5 =>
      fun_cases Value.same a b
      case case13 s xs t ys => exact fun h => (Bool.and_eq_true .. |>.mp h).1
      case case22 => exact fun h => Bool.noConfusion h
      all_goals exact fun _ => rfl

theorem sameIdentifier_of_strictEq (h : a.strictEq b = true) : sameIdentifier a b = true := by
  unfold sameIdentifier
  split
  · rename_i htextual
    rw [Bool.and_eq_true] at htextual
    have heq : a = b := by
      cases a with
      | objectId id =>
          cases b with
          | objectId other => exact congrArg _ (beq_iff_eq.mp h)
          | _ => cases h
      | string s =>
          cases b with
          | string t => exact congrArg _ (beq_iff_eq.mp h)
          | _ => cases h
      | _ => cases htextual.1
    exact beq_iff_eq.mpr (congrArg _ heq)
  · exact h

theorem Value.looseEq_of_strictEq (hb : b.WellFormed) (h : a.strictEq b = true) :
    a.looseEq b = true := by
  induction a using Value.induction generalizing b with
  | step a ih =>
  have hparts : ∀ x ∈ a.parts, ∀ y, y.WellFormed → x.strictEq y = true → x.looseEq y = true :=
    fun x hx y => ih x hx
  cases b with
  | array ys =>
      cases a with
      | array xs =>
          obtain ⟨hlength, hpairs⟩ := List.forall₂_iff_get.mp (strictItems_iff.mp h)
          refine looseItems_iff.mpr (List.forall₂_iff_get.mpr ⟨hlength, fun i hi hj => ?_⟩)
          exact hparts _ (List.get_mem ..) _ (hb.parts _ (List.get_mem ..)) (hpairs i hi hj)
      | _ => cases h
  | document ys =>
      cases a with
      | document xs =>
          obtain ⟨hlength, hpairs⟩ := List.forall₂_iff_get.mp (strictFields_iff.mp h)
          rw [Value.looseEq, hlength, beq_self_eq_true, Bool.true_and]
          refine looseFields_iff.mpr fun field hmem => ?_
          -- The field in the same place has the same name, and no other one has it.
          obtain ⟨i, hi, rfl⟩ := List.mem_iff_getElem.mp hmem
          have hj : i < ys.length := hlength ▸ hi
          obtain ⟨hkey, hvalue⟩ := hpairs i hi hj
          have hlike : ys[i] ∈ ys := List.getElem_mem hj
          refine ⟨ys[i].2, ?_, ?_⟩
          · exact (Document.get?_eq_some_iff hb.1).mpr (hkey ▸ hlike)
          · exact hparts _ (List.mem_map.mpr ⟨_, hmem, rfl⟩) _
              (Document.WellFormed.field hb hlike) hvalue
      | _ => cases h
  | _ =>
      rw [looseEq_of_sameFamily ⟨rfl, rfl⟩ (sameFamily_of_strictEq h)]
      exact sameIdentifier_of_strictEq h

/-! ## In another order -/

namespace Reordering

mutual

theorem OfLiteral.wellFormed : ∀ {v w : Value}, OfLiteral v w → v.WellFormed → w.WellFormed
  | _, _, .same _, hv => hv
  | _, _, .array h, hv => h.wellFormed hv
  | _, _, .document h, hv => ⟨h.perm_keys.nodup_iff.mp hv.1, h.wellFormed hv.2⟩

theorem OfItems.wellFormed :
    ∀ {xs ys : List Value}, OfItems xs ys → allWellFormed xs → allWellFormed ys
  | _, _, .nil, _ => trivial
  | _, _, .cons item rest, hv => ⟨item.wellFormed hv.1, rest.wellFormed hv.2⟩

theorem OfFields.wellFormed :
    ∀ {d e : Document}, OfFields d e → fieldsWellFormed d → fieldsWellFormed e
  | _, _, .nil, _ => trivial
  | _, _, .cons field rest, hv => ⟨field.wellFormed hv.1, rest.wellFormed hv.2⟩
  | _, _, .order h he, hv => by
      rw [fieldsWellFormed_iff]
      intro field hmem
      exact fieldsWellFormed_iff.mp (h.wellFormed hv) field (he.mem_iff.mpr hmem)

end

end Reordering

theorem Value.looseEq_comm (ha : a.WellFormed) (hb : b.WellFormed) :
    a.looseEq b = b.looseEq a :=
  Bool.eq_iff_iff.mpr ⟨looseEq_symm ha hb, looseEq_symm hb ha⟩

theorem Reordering.OfLiteral.looseEq_both {a' b' : Value} (h : OfLiteral a a') (h' : OfLiteral b b')
    (ha : a.WellFormed) (hb : b.WellFormed) : a'.looseEq b' = a.looseEq b := by
  have ha' : a'.WellFormed := h.wellFormed ha
  calc a'.looseEq b' = a'.looseEq b := (h'.looseEq hb a').symm
    _ = b.looseEq a' := Value.looseEq_comm ha' hb
    _ = b.looseEq a := (h.looseEq ha b).symm
    _ = a.looseEq b := Value.looseEq_comm hb ha

/-! ## Together -/

theorem compileValue_notEqual [Pattern.Engine] (settings : Settings) (v : Value) :
    compileValue settings (.document [("$ne", v)]) = .ok (.operators [.notEqual v]) := by
  refine compileValue_single (by decide) ?_
  cases v <;> rfl

/-- Both equalities are the same from both sides. Loose equality does not see the order of keys,
strict equality is transitive and the finer one, so that `$eq` and `$ne` exclude one another, and
each value without NaN is equal to itself. -/
theorem Value.equalities_agree [Pattern.Engine] (ha : a.WellFormed) (hb : b.WellFormed) :
    a.looseEq b = b.looseEq a ∧
    (∀ a' b', Reordering.OfLiteral a a' → Reordering.OfLiteral b b' →
      a'.looseEq b' = a.looseEq b) ∧
    a.strictEq b = b.strictEq a ∧
    (∀ c, a.strictEq b = true → b.strictEq c = true → a.strictEq c = true) ∧
    (a.strictEq b = true → a.looseEq b = true) ∧
    (∀ settings, ∃ equal unequal,
      compileValue settings (.document [("$eq", b)]) = .ok equal ∧
      compileValue settings (.document [("$ne", b)]) = .ok unequal ∧
      ∀ v, ¬ (equal.holds v = true ∧ unequal.holds v = true)) ∧
    (a.NaNFree → a.looseEq a = true ∧ a.strictEq a = true) := by
  refine ⟨looseEq_comm ha hb, fun a' b' h h' => h.looseEq_both h' ha hb,
    Bool.eq_iff_iff.mpr ⟨strictEq_symm ha hb, strictEq_symm hb ha⟩, fun c => strictEq_trans,
    looseEq_of_strictEq hb, fun settings => ?_,
    fun hfree => ⟨looseEq_self ha hfree, strictEq_self ha hfree⟩⟩
  refine ⟨_, _, compileValue_equal settings b, compileValue_notEqual settings b, ?_⟩
  rintro v ⟨hequal, hunequal⟩
  have hstrict : (v.getD .null).strictEq b = true := by
    simpa [Constraint.holds, operatorsHold, Operator.holds] using hequal
  have hloose : (v.getD .null).looseEq b = false := by
    simpa [Constraint.holds, operatorsHold, Operator.holds] using hunequal
  rw [looseEq_of_strictEq hb hstrict] at hloose
  cases hloose

/-- A document in an array with its keys in another order, integers of both widths and a text that
spells a number. -/
theorem Value.equalities_agree_nested :
    let a : Value := .document [("n", .int32 3),
      ("d", .array [.document [("x", .null), ("y", .string "1")]])]
    let a' : Value := .document [("d", .array [.document [("y", .string "1"), ("x", .null)]]),
      ("n", .int32 3)]
    let b : Value := .document [("n", .int64 3),
      ("d", .array [.document [("x", .undefined), ("y", .int32 1)]])]
    a'.looseEq b = true ∧ b.looseEq a = true ∧ a.strictEq a = true ∧
      ∃ equal unequal, compileValue .default (.document [("$eq", b)]) = .ok equal ∧
        compileValue .default (.document [("$ne", b)]) = .ok unequal ∧
        equal.holds (some a) = false ∧ unequal.holds (some b) = false := by
  intro a a' b
  have ha : a.WellFormed := by simp [a, WellFormed, fieldsWellFormed, allWellFormed]
  have hb : b.WellFormed := by simp [b, WellFormed, fieldsWellFormed, allWellFormed]
  have hfree : a.NaNFree := (same_self_iff ha).mp (by decide)
  have horder : Reordering.OfLiteral a a' := by
    refine .document (.order (.cons (.same _) (.cons (.array (.cons ?_ .nil)) .nil)) (.swap ..))
    exact .document (.order (.cons (.same _) (.cons (.same _) .nil)) (.swap ..))
  obtain ⟨hsymm, hreordered, -, -, -, hexclude, hself⟩ := equalities_agree ha hb
  have hloose : a.looseEq b = true := by decide
  obtain ⟨equal, unequal, hequal, hunequal, hnot⟩ := hexclude .default
  have hstrict : equal = .operators [.equal b] :=
    Except.ok.inj (hequal.symm.trans (compileValue_equal .default b))
  have hholds : equal.holds (some b) = true := by rw [hstrict]; decide
  refine ⟨(hreordered a' b horder (.same b)).trans hloose, hsymm ▸ hloose, (hself hfree).2,
    equal, unequal, hequal, hunequal, ?_, ?_⟩
  · rw [hstrict]
    decide
  · exact Bool.eq_false_iff.mpr fun h => hnot (some b) ⟨hholds, h⟩

/-- Two texts spell one number and are not equal to each other. -/
example : (Value.string "1").looseEq (.int32 1) = true ∧
    (Value.int32 1).looseEq (.string "1.0") = true ∧
    (Value.string "1").looseEq (.string "1.0") = false := by decide

end DocStore
