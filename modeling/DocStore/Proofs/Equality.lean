import DocStore.Collection
import DocStore.Proofs.Fields
import Mathlib.Data.List.Forall2

/-!
# Symmetry of the equalities

`Value.same`, `Value.strictEq` and `sameIdentifier` do not depend on the order
of their arguments, on well-formed values. Arrays, and documents in the order
of their keys, are pairings of lists (`List.Forall₂`); documents in any order
are a one-sided pairing by name, which the distinct names make two-sided
(`Document.paired_swap`).
-/

namespace DocStore

/-! ## Pairings -/

theorem sameItems_iff {xs ys : List Value} :
    sameItems xs ys = true ↔ List.Forall₂ (fun x y => x.same y = true) xs ys := by
  induction xs generalizing ys with
  | nil => cases ys <;> simp [sameItems]
  | cons x xs ih => cases ys <;> simp [sameItems, ih]

theorem sameFields_iff {xs ys : List (String × Value)} :
    sameFields xs ys = true ↔
      ∀ field ∈ xs, ∃ y, Document.get? ys field.1 = some y ∧ field.2.same y = true := by
  induction xs with
  | nil => simp [sameFields]
  | cons field rest ih =>
      rw [sameFields, Bool.and_eq_true, ih, List.forall_mem_cons, Document.get?]
      cases ys.lookup field.1 <;> simp

theorem strictItems_iff {xs ys : List Value} :
    strictItems xs ys = true ↔ List.Forall₂ (fun x y => x.strictEq y = true) xs ys := by
  induction xs generalizing ys with
  | nil => cases ys <;> simp [strictItems]
  | cons x xs ih => cases ys <;> simp [strictItems, ih]

theorem strictFields_iff {xs ys : List (String × Value)} :
    strictFields xs ys = true ↔
      List.Forall₂ (fun f g => f.1 = g.1 ∧ f.2.strictEq g.2 = true) xs ys := by
  induction xs generalizing ys with
  | nil => cases ys <;> simp [strictFields]
  | cons f xs ih => cases ys <;> simp [strictFields, ih, and_assoc]

/-- A pairing turned around, where the relation turns around on its members. -/
theorem forall₂_swap {α : Type} {R : α → α → Prop} {xs ys : List α}
    (hR : ∀ x ∈ xs, ∀ y ∈ ys, R x y → R y x) (h : List.Forall₂ R xs ys) :
    List.Forall₂ R ys xs := by
  induction h with
  | nil => exact .nil
  | cons hxy _ ih =>
      exact .cons (hR _ (List.mem_cons_self ..) _ (List.mem_cons_self ..) hxy)
        (ih fun x hx y hy => hR x (List.mem_cons_of_mem _ hx) y (List.mem_cons_of_mem _ hy))

/-! ## The same content -/

theorem Double.compare?_swap (a b : Double) : b.compare? a = (a.compare? b).map .swap := by
  unfold compare?
  rw [Bool.or_comm]
  split
  · rfl
  · rw [Option.map_some, ← Std.OrientedCmp.eq_swap]

theorem Double.numEq_symm {a b : Double} (h : a.numEq b = true) : b.numEq a = true := by
  unfold numEq at h ⊢
  rw [beq_iff_eq] at h ⊢
  rw [compare?_swap a b, h]
  rfl

/-- Distinct names on both sides turn the pairing of fields around. -/
theorem sameFields_swap {xs ys : Document} (hx : xs.WellFormed) (hy : ys.WellFormed)
    (hlength : xs.length = ys.length)
    (hsame : ∀ x ∈ xs.map (·.2), ∀ y, y.WellFormed → x.same y = true → y.same x = true)
    (h : sameFields xs ys = true) : sameFields ys xs = true := by
  have hpaired := Document.paired_swap (R := fun x y => x.same y = true)
    hx.nodup hy.nodup hlength (sameFields_iff.mp h)
  refine sameFields_iff.mpr fun field hmem => ?_
  obtain ⟨x, hget, hxy⟩ := hpaired field hmem
  exact ⟨x, hget, hsame x (Document.mem_values_of_get? hget) _ (hy.field hmem) hxy⟩

theorem Value.same_symm {a b : Value} (ha : a.WellFormed) (hb : b.WellFormed) :
    a.same b = true → b.same a = true := by
  induction a using Value.induction generalizing b with
  | step a ih =>
  have hparts : ∀ x ∈ a.parts, ∀ y, y.WellFormed → x.same y = true → y.same x = true :=
    fun x hx y hy => ih x hx (ha.parts x hx) hy
  fun_cases Value.same a b
  case case1 x y => exact Double.numEq_symm
  case case3 xs ys =>
      intro h
      refine sameItems_iff.mpr (forall₂_swap (fun x hx y hy => ?_) (sameItems_iff.mp h))
      exact hparts x hx y (hb.parts y hy)
  case case4 xs ys =>
      simp only [Value.same, Bool.and_eq_true, beq_iff_eq]
      rintro ⟨hlength, h⟩
      exact ⟨hlength.symm, sameFields_swap ha hb hlength hparts h⟩
  case case9 source xs target ys =>
      simp only [Value.same, Bool.and_eq_true, beq_iff_eq]
      rintro ⟨⟨hsource, hlength⟩, h⟩
      exact ⟨⟨hsource.symm, hlength.symm⟩, sameFields_swap ha hb hlength hparts h⟩
  -- Values of different kinds are not the same.
  case case22 => exact fun h => Bool.noConfusion h
  all_goals simp +contextual only [Value.same, Bool.and_eq_true, beq_iff_eq, and_self, implies_true]

/-! ## Strict equality -/

theorem Value.strictEq_symm {a b : Value} (ha : a.WellFormed) (hb : b.WellFormed) :
    a.strictEq b = true → b.strictEq a = true := by
  induction a using Value.induction generalizing b with
  | step a ih =>
  have hparts : ∀ x ∈ a.parts, ∀ y, y.WellFormed → x.strictEq y = true → y.strictEq x = true :=
    fun x hx y hy => ih x hx (ha.parts x hx) hy
  fun_cases Value.strictEq a b
  case case1 | case2 =>
      simp only [Value.strictEq, beq_iff_eq]
      exact Eq.symm
  case case3 xs ys =>
      intro h
      refine strictItems_iff.mpr (forall₂_swap (fun x hx y hy => ?_) (strictItems_iff.mp h))
      exact hparts x hx y (hb.parts y hy)
  case case4 xs ys =>
      intro h
      refine strictFields_iff.mpr (forall₂_swap (fun f hf g hg => ?_) (strictFields_iff.mp h))
      rintro ⟨hkey, hvalue⟩
      exact ⟨hkey.symm, hparts f.2 (List.mem_map.mpr ⟨f, hf, rfl⟩) g.2
        (Document.WellFormed.field hb hg) hvalue⟩
  case case5 hwiden hnarrow harrays hdocuments =>
      intro h
      fun_cases Value.strictEq b a
      case case1 => exact (hnarrow _ _ rfl rfl).elim
      case case2 => exact (hwiden _ _ rfl rfl).elim
      case case3 => exact (harrays _ _ rfl rfl).elim
      case case4 => exact (hdocuments _ _ rfl rfl).elim
      case case5 => exact same_symm ha hb h

/-! ## Identifiers -/

theorem sameIdentifier_symm {a b : Value} (ha : a.WellFormed) (hb : b.WellFormed)
    (h : sameIdentifier a b = true) : sameIdentifier b a = true := by
  unfold sameIdentifier at h ⊢
  rw [Bool.and_comm]
  split at h
  · rename_i htextual
    rw [if_pos htextual]
    exact beq_iff_eq.mpr (beq_iff_eq.mp h).symm
  · rename_i htextual
    rw [if_neg htextual]
    exact Value.strictEq_symm ha hb h

end DocStore
