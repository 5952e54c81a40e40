import DocStore.Proofs.Equalities

/-!
# The same value in another order, place by place

Two arrays are the same but for the order of keys inside if they are so index by index
(`Reordering.OfLiteral.array_iff`), and two documents if they are so name by name
(`Reordering.OfLiteral.document_iff`): where names are distinct, nothing but the order is
left to differ. Read in this way the relation turns around and goes on
(`OfLiteral.symm`, `OfLiteral.trans`), and a value is the same as either or as neither
(`OfLiteral.same_eq`).
-/

namespace DocStore

namespace Reordering

/-- Nothing in either place, or the same value but for the order of its keys. -/
abbrev OfOption : Option Value → Option Value → Prop := Option.Rel OfLiteral

theorem OfOption.refl (x : Option Value) : OfOption x x := by
  cases x with
  | none => exact .none
  | some v => exact .some (.same v)

theorem OfOption.getD {x y : Option Value} (h : OfOption x y) (v : Value) :
    OfLiteral (x.getD v) (y.getD v) := by
  cases h with
  | none => exact .same v
  | some h => exact h

theorem OfOption.exists_of_some {v : Value} {y : Option Value} (h : OfOption (some v) y) :
    ∃ w, y = some w ∧ OfLiteral v w := by
  cases h with
  | some h => exact ⟨_, rfl, h⟩

theorem OfOption.eq_none_iff {x y : Option Value} (h : OfOption x y) : x = none ↔ y = none := by
  cases h with
  | none => exact Iff.rfl
  | some _ => exact iff_of_false (Option.some_ne_none _) (Option.some_ne_none _)

/-! ## Arrays -/

section Arrays

variable {xs ys : List Value}

theorem OfItems.forall₂ : ∀ {xs ys : List Value}, OfItems xs ys → List.Forall₂ OfLiteral xs ys
  | _, _, .nil => .nil
  | _, _, .cons item rest => .cons item rest.forall₂

theorem OfItems.getElem? (h : OfItems xs ys) : ∀ i : Nat, OfOption xs[i]? ys[i]? :=
  getElem?_of_forall₂ h.forall₂

theorem OfItems.of_getElem? (h : ∀ i : Nat, OfOption xs[i]? ys[i]?) : OfItems xs ys := by
  induction xs generalizing ys with
  | nil =>
      cases ys with
      | nil => exact .nil
      | cons => cases h 0
  | cons v xs ih =>
      cases ys with
      | nil => cases h 0
      | cons w ys =>
          cases h 0 with
          | some item => exact .cons item (ih fun i => h (i + 1))

theorem OfLiteral.array_iff :
    OfLiteral (.array xs) (.array ys) ↔ ∀ i : Nat, OfOption xs[i]? ys[i]? := by
  refine ⟨fun h i => ?_, fun h => .array (.of_getElem? h)⟩
  cases h with
  | same => exact .refl _
  | array h => exact h.getElem? i

theorem length_eq_of_getElem? (h : ∀ i : Nat, OfOption xs[i]? ys[i]?) :
    xs.length = ys.length := by
  refine Nat.le_antisymm ?_ ?_
  · exact List.getElem?_eq_none_iff.mp ((h _).eq_none_iff.mpr (List.getElem?_length ys))
  · exact List.getElem?_eq_none_iff.mp ((h _).eq_none_iff.mp (List.getElem?_length xs))

end Arrays

/-! ## Documents -/

section Documents

variable {d e : Document}

theorem OfFields.get? : ∀ {d e : Document}, OfFields d e → d.keys.Nodup → ∀ key : String,
    OfOption (d.get? key) (e.get? key)
  | _, _, .nil, _, _ => .none
  | _, _, .cons field rest, hd, key => by
      rw [Document.get?_cons, Document.get?_cons]
      split
      · exact .some field
      · exact rest.get? hd.of_cons key
  | _, _, .order h he, hd, key => by
      rw [← Document.get?_perm (h.perm_keys.nodup_iff.mp hd) he]
      exact h.get? hd key

/-- A field can be moved to the front. -/
theorem perm_cons_erase {key : String} {v : Value} (he : e.keys.Nodup)
    (h : e.get? key = some v) : ((key, v) :: e.erase key).Perm e := by
  have hrest : ∀ {field}, field ∈ e.erase key ↔ field ∈ e ∧ field.1 ≠ key := by
    simp [Document.erase]
  refine (List.perm_ext_iff_of_nodup ?_ (.of_map _ he)).mpr fun field => ?_
  · refine List.nodup_cons.mpr ⟨fun hmem => (hrest.mp hmem).2 rfl, ?_⟩
    exact .of_map _ (Document.nodup_keys_erase he key)
  · rw [List.mem_cons, hrest]
    constructor
    · rintro (rfl | hmem)
      · exact Document.mem_of_get?_eq_some h
      · exact hmem.1
    · intro hmem
      by_cases hkey : field.1 = key
      · have hread := (Document.get?_eq_some_iff he).mpr hmem
        rw [hkey, h] at hread
        exact Or.inl (Prod.ext hkey (Option.some.inj hread).symm)
      · exact Or.inr ⟨hmem, hkey⟩

theorem OfFields.of_get? (hd : d.keys.Nodup) (he : e.keys.Nodup)
    (h : ∀ key, OfOption (d.get? key) (e.get? key)) : OfFields d e := by
  induction d generalizing e with
  | nil =>
      cases e with
      | nil => exact .nil
      | cons field rest =>
          have hfirst := h field.1
          rw [Document.get?_cons, if_pos rfl] at hfirst
          cases hfirst
  | cons field rest ih =>
      obtain ⟨key, v⟩ := field
      have hfirst := h key
      rw [Document.get?_cons, if_pos rfl] at hfirst
      obtain ⟨w, hw, hvw⟩ := hfirst.exists_of_some
      refine .order (.cons hvw (ih hd.of_cons (Document.nodup_keys_erase he key) fun other => ?_))
        (perm_cons_erase he hw)
      by_cases hother : other = key
      · subst hother
        have hmissing : Document.get? rest other = none := by
          by_contra hthere
          obtain ⟨x, hx⟩ := Option.ne_none_iff_exists'.mp hthere
          exact (List.nodup_cons.mp hd).1 (Document.mem_keys_iff.mpr ⟨x, hx⟩)
        rw [hmissing, Document.get?_erase_self]
        exact .none
      · have hrest := h other
        rwa [Document.get?_cons, if_neg hother, ← Document.get?_erase_of_ne e hother] at hrest

theorem OfLiteral.document_iff (hd : d.keys.Nodup) (he : e.keys.Nodup) :
    OfLiteral (.document d) (.document e) ↔ ∀ key, OfOption (d.get? key) (e.get? key) := by
  refine ⟨fun h key => ?_, fun h => .document (.of_get? hd he h)⟩
  cases h with
  | same => exact .refl _
  | document h => exact h.get? hd key

end Documents

/-! ## An equivalence -/

variable {u v w x : Value}

theorem OfOption.symm_of {x y : Option Value} (h : OfOption x y)
    (hsymm : ∀ v w, x = some v → OfLiteral v w → OfLiteral w v) : OfOption y x := by
  cases h with
  | none => exact .none
  | some h => exact .some (hsymm _ _ rfl h)

theorem OfLiteral.symm (h : OfLiteral v w) (hv : v.WellFormed) : OfLiteral w v := by
  induction v using Value.induction generalizing w with
  | step v ih =>
  have hw : w.WellFormed := h.wellFormed hv
  cases h with
  | same => exact .same _
  | @array xs ys h =>
      refine array_iff.mpr fun i => (h.getElem? i).symm_of fun x y hx hxy => ?_
      have hpart : x ∈ xs := List.mem_of_getElem? hx
      exact ih x hpart hxy (hv.parts x hpart)
  | @document d e h =>
      refine (document_iff hw.1 hv.1).mpr fun key => (h.get? hv.1 key).symm_of ?_
      intro x y hx hxy
      have hpart : x ∈ d.map (·.2) := Document.mem_values_of_get? hx
      exact ih x hpart hxy (hv.parts x hpart)

theorem OfOption.trans_of {x y z : Option Value} (hxy : OfOption x y) (hyz : OfOption y z)
    (htrans : ∀ u v w, x = some u → OfLiteral u v → OfLiteral v w → OfLiteral u w) :
    OfOption x z := by
  cases hxy with
  | none =>
      cases hyz
      exact .none
  | some huv =>
      cases hyz with
      | some hvw => exact .some (htrans _ _ _ rfl huv hvw)

theorem OfLiteral.trans (huv : OfLiteral u v) (hvw : OfLiteral v w) (hu : u.WellFormed) :
    OfLiteral u w := by
  induction u using Value.induction generalizing v w with
  | step u ih =>
  have hv : v.WellFormed := huv.wellFormed hu
  have hw : w.WellFormed := hvw.wellFormed hv
  cases huv with
  | same => exact hvw
  | @array xs ys h =>
      cases hvw with
      | same => exact .array h
      | array h' =>
          refine array_iff.mpr fun i => (h.getElem? i).trans_of (h'.getElem? i) ?_
          intro x y z hx hxy hyz
          have hpart : x ∈ xs := List.mem_of_getElem? hx
          exact ih x hpart hxy hyz (hu.parts x hpart)
  | @document d e h =>
      cases hvw with
      | same => exact .document h
      | document h' =>
          refine (document_iff hu.1 hw.1).mpr fun key =>
            (h.get? hu.1 key).trans_of (h'.get? hv.1 key) ?_
          intro x y z hx hxy hyz
          have hpart : x ∈ d.map (·.2) := Document.mem_values_of_get? hx
          exact ih x hpart hxy hyz (hu.parts x hpart)

/-! ## The same content -/

theorem OfLiteral.same_of_same (h : OfLiteral v w) (hv : v.WellFormed)
    (hx : x.same v = true) : x.same w = true := by
  induction x using Value.induction generalizing v w with
  | step x ih =>
  cases h with
  | same => exact hx
  | @array xs ys h =>
      cases x with
      | array items =>
          refine sameItems_iff.mpr (forall₂_trans ?_ (sameItems_iff.mp hx) h.forall₂)
          intro x hpart y hy z hsame hyz
          exact ih x hpart hyz (hv.parts y hy) hsame
      | _ => cases hx
  | @document d e h =>
      cases x with
      | document fields =>
          simp only [Value.same, Bool.and_eq_true, beq_iff_eq] at hx ⊢
          have hlength : d.length = e.length := by simpa [Document.keys] using h.perm_keys.length_eq
          refine ⟨hx.1.trans hlength, sameFields_iff.mpr fun field hmem => ?_⟩
          obtain ⟨y, hy, hsame⟩ := sameFields_iff.mp hx.2 field hmem
          have hread := h.get? hv.1 field.1
          rw [hy] at hread
          obtain ⟨z, hz, hyz⟩ := hread.exists_of_some
          exact ⟨z, hz, ih _ (List.mem_map.mpr ⟨field, hmem, rfl⟩) hyz
            (Document.WellFormed.get? hv hy) hsame⟩
      | _ => cases hx

theorem OfLiteral.same_eq (h : OfLiteral v w) (hv : v.WellFormed) (hx : x.WellFormed) :
    v.same x = w.same x := by
  have hw : w.WellFormed := h.wellFormed hv
  refine Bool.eq_iff_iff.mpr ⟨fun hsame => ?_, fun hsame => ?_⟩
  · exact Value.same_symm hx hw (h.same_of_same hv (Value.same_symm hv hx hsame))
  · exact Value.same_symm hx hv ((h.symm hv).same_of_same hw (Value.same_symm hw hx hsame))

end Reordering

end DocStore
