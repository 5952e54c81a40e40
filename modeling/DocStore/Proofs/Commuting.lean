import DocStore.Proofs.Rearrangement
import DocStore.Proofs.WriteExtent

/-!
# Two writes at paths that diverge

Two writes at paths that diverge, both possible in one document, are possible one after
the other in either order, and come to the same but for the order of keys
(`Document.set_diamond`). Below a segment that they share the same is said again; at
segments that name different places neither sees what the other one makes. A null in an
array gives way to a document for whichever write comes first, and an array that has
grown for one of them has to grow less for the other.

That both are possible in the document is needed: an array is not grown by more than a
limit at once, so a write may be possible only after another one.
-/

namespace DocStore

open DocStore.Path

open DocStore.Reordering

namespace Value

variable {v changed new : Value} {owner segment : String} {rest : List String}

/-! ## One step of a write -/

theorem setAt_document_iff {d : Document} :
    (document d).setAt owner (segment :: rest) new = .ok changed ↔
      ∃ below, ((d.get? segment).getD (.document [])).setAt segment rest new = .ok below ∧
        changed = .document (d.insert segment below) := by
  rw [setAt, map_eq_ok_iff]
  exact exists_congr fun _ => and_congr_right fun _ => eq_comm

theorem setAt_array_iff {items : List Value} :
    (array items).setAt owner (segment :: rest) new = .ok changed ↔
      ∃ i below, index? segment = some i ∧ i - items.length ≤ maxArrayPadding ∧
        (items[i]?.getD null).orDocument.setAt segment rest new = .ok below ∧
        changed = .array (grown items i below) := by
  refine ⟨setAt_array, ?_⟩
  rintro ⟨i, below, hi, hpadding, hbelow, rfl⟩
  rw [setAt]
  simp only [hi, if_neg (Nat.not_lt.mpr hpadding), getD_padded, hbelow]
  rfl

/-- What has been written into does not give way to a document. -/
theorem orDocument_of_setAt {path other : List String}
    (h : v.setAt owner path new = .ok changed) (hpath : Diverge path other) :
    changed.orDocument = changed := by
  cases path with
  | nil => exact hpath.elim
  | cons segment rest =>
      obtain ⟨slot, below, -, hchild, -⟩ := setAt_cons h
      cases changed with
      | null => cases hchild
      | _ => rfl

/-! ### Arrays that grow -/

section Grown

variable {items : List Value} {i j : Nat} {below below' : Value}

theorem grown_grown_self : grown (grown items i below) i below' = grown items i below' := by
  have hlength : i + 1 - (grown items i below).length = 0 := by
    rw [length_grown]
    omega
  rw [grown, hlength, List.replicate_zero, List.append_nil, grown, List.set_set, ← grown]

/-- Another place reads as before, if one that is filled up counts as missing. -/
theorem getD_grown_of_ne (hij : i ≠ j) :
    (grown items i below)[j]?.getD null = items[j]?.getD null := by
  rw [getElem?_grown_of_ne hij]
  by_cases hlt : j < items.length
  · rw [if_pos hlt]
  · rw [if_neg hlt, List.getElem?_eq_none (Nat.le_of_not_lt hlt)]
    split <;> rfl

/-- What has been written stays when the array grows again. -/
theorem getElem?_grown_grown (hij : i ≠ j) :
    (grown (grown items i below) j below')[i]? = some below := by
  have hlt : i < (grown items i below).length := by
    rw [length_grown]
    omega
  rw [getElem?_grown_of_ne hij.symm, if_pos hlt, getElem?_grown_self]

theorem grown_comm (hij : i ≠ j) :
    grown (grown items i below) j below' = grown (grown items j below') i below := by
  refine List.ext_getElem? fun k => ?_
  by_cases hi : k = i
  · rw [hi, getElem?_grown_grown hij, getElem?_grown_self]
  · by_cases hj : k = j
    · rw [hj, getElem?_grown_grown hij.symm, getElem?_grown_self]
    · simp only [getElem?_grown_of_ne (Ne.symm hi), getElem?_grown_of_ne (Ne.symm hj), length_grown]
      split_ifs <;> first | rfl | omega

end Grown

/-! ### A step after another one -/

section Steps

variable {d : Document} {items : List Value} {i j : Nat} {below below' w : Value}

theorem setAt_insert_self (h : below.setAt segment rest new = .ok below') :
    (document (d.insert segment below)).setAt owner (segment :: rest) new =
      .ok (.document (d.insert segment below')) := by
  refine setAt_document_iff.mpr ⟨below', ?_, by rw [Document.insert_insert_self]⟩
  rwa [Document.get?_insert_self]

theorem setAt_insert_of_ne {other : String} (hne : segment ≠ other)
    (h : ((d.get? segment).getD (.document [])).setAt segment rest new = .ok below) :
    (document (d.insert other w)).setAt owner (segment :: rest) new =
      .ok (.document ((d.insert other w).insert segment below)) := by
  refine setAt_document_iff.mpr ⟨below, ?_, rfl⟩
  rwa [Document.get?_insert_of_ne d w hne]

/-- An array that has grown to the index needs no padding. -/
theorem setAt_grown_self (hi : index? segment = some i) (hbelow : below.orDocument = below)
    (h : below.setAt segment rest new = .ok below') :
    (array (grown items i below)).setAt owner (segment :: rest) new =
      .ok (.array (grown items i below')) := by
  have hlength := length_grown items i below
  refine setAt_array_iff.mpr ⟨i, below', hi, by omega, ?_, by rw [grown_grown_self]⟩
  rwa [getElem?_grown_self, Option.getD_some, hbelow]

/-- An array that has grown needs less padding than before. -/
theorem setAt_grown_of_ne (hij : i ≠ j) (hj : index? segment = some j)
    (hpadding : j - items.length ≤ maxArrayPadding)
    (h : (items[j]?.getD null).orDocument.setAt segment rest new = .ok below) :
    (array (grown items i w)).setAt owner (segment :: rest) new =
      .ok (.array (grown (grown items i w) j below)) := by
  have hlength := length_grown items i w
  refine setAt_array_iff.mpr ⟨j, below, hj, by omega, ?_, rfl⟩
  rwa [getD_grown_of_ne hij]

end Steps

end Value

namespace Reordering

variable {v w new changed : Value}

/-! ## Writing into the same in another order -/

theorem OfLiteral.orDocument (h : OfLiteral v w) : OfLiteral v.orDocument w.orDocument := by
  cases h with
  | same => exact .same _
  | array h => exact .array h
  | document h => exact .document h

theorem OfLiteral.insert {d e : Document} {key : String} (hd : d.keys.Nodup) (he : e.keys.Nodup)
    (h : OfLiteral (.document d) (.document e)) (hvw : OfLiteral v w) :
    OfLiteral (.document (d.insert key v)) (.document (e.insert key w)) := by
  refine (document_iff (Document.nodup_keys_insert hd key v)
    (Document.nodup_keys_insert he key w)).mpr fun other => ?_
  by_cases hother : other = key
  · rw [hother, Document.get?_insert_self, Document.get?_insert_self]
    exact .some hvw
  · rw [Document.get?_insert_of_ne d v hother, Document.get?_insert_of_ne e w hother]
    exact (document_iff hd he).mp h other

theorem OfLiteral.grown {xs ys : List Value} (h : OfLiteral (.array xs) (.array ys))
    (hvw : OfLiteral v w) (i : Nat) :
    OfLiteral (.array (Value.grown xs i v)) (.array (Value.grown ys i w)) := by
  rw [array_iff] at h ⊢
  intro j
  by_cases hij : i = j
  · rw [← hij, Value.getElem?_grown_self, Value.getElem?_grown_self]
    exact .some hvw
  · rw [Value.getElem?_grown_of_ne hij, Value.getElem?_grown_of_ne hij, length_eq_of_getElem? h]
    split
    · exact h j
    · exact .refl _

/-- What can be written can be written into the same value in another order, with the same
outcome but for the order. -/
theorem OfLiteral.setAt {path : List String} {owner : String} (h : OfLiteral v w)
    (hv : v.WellFormed) (hset : v.setAt owner path new = .ok changed) :
    ∃ other, w.setAt owner path new = .ok other ∧ OfLiteral changed other := by
  induction path generalizing v w owner changed with
  | nil =>
      rw [Value.setAt] at hset
      exact ⟨changed, by rw [Value.setAt, hset], .same _⟩
  | cons segment rest ih =>
      have hw : w.WellFormed := h.wellFormed hv
      cases v with
      | document d =>
          obtain ⟨below, hbelow, rfl⟩ := Value.setAt_document_iff.mp hset
          obtain ⟨e, rfl⟩ : ∃ e, w = .document e := by
            cases h <;> exact ⟨_, rfl⟩
          have hslot := ((document_iff hv.1 hw.1).mp h segment).getD (.document [])
          obtain ⟨other, hother, hlike⟩ := ih hslot (Document.WellFormed.slot hv segment) hbelow
          exact ⟨_, Value.setAt_document_iff.mpr ⟨other, hother, rfl⟩, h.insert hv.1 hw.1 hlike⟩
      | array items =>
          obtain ⟨i, below, hi, hpadding, hbelow, rfl⟩ := Value.setAt_array_iff.mp hset
          obtain ⟨items', rfl⟩ : ∃ items', w = .array items' := by
            cases h <;> exact ⟨_, rfl⟩
          have hslot := ((array_iff.mp h i).getD .null).orDocument
          obtain ⟨other, hother, hlike⟩ := ih hslot (hv.element i) hbelow
          rw [length_eq_of_getElem? (array_iff.mp h)] at hpadding
          exact ⟨_, Value.setAt_array_iff.mpr ⟨i, other, hi, hpadding, hother, rfl⟩,
            h.grown hlike i⟩
      | _ => cases hset

end Reordering

/-! ## Two writes -/

/-- Two fields are written in either order. -/
theorem Reordering.OfLiteral.insert_comm {d : Document} {key other : String} (hd : d.keys.Nodup)
    (h : other ≠ key) (v w : Value) :
    OfLiteral (.document ((d.insert key v).insert other w))
      (.document ((d.insert other w).insert key v)) := by
  have hnodup : ∀ k l (x y : Value), ((d.insert k x).insert l y).keys.Nodup := fun k l x y =>
    Document.nodup_keys_insert (Document.nodup_keys_insert hd k x) l y
  have hread : ∀ name, ((d.insert key v).insert other w).get? name =
      ((d.insert other w).insert key v).get? name := by
    intro name
    by_cases hkey : name = key
    · rw [hkey, Document.get?_insert_of_ne _ w h.symm, Document.get?_insert_self,
        Document.get?_insert_self]
    · rw [Document.get?_insert_of_ne _ v hkey]
      by_cases hother : name = other
      · rw [hother, Document.get?_insert_self, Document.get?_insert_self]
      · rw [Document.get?_insert_of_ne _ w hother, Document.get?_insert_of_ne _ w hother,
          Document.get?_insert_of_ne _ v hkey]
  exact (document_iff (hnodup ..) (hnodup ..)).mpr fun name => hread name ▸ .refl _

/-- Two writes at paths that diverge can be done one after the other, in either order. -/
theorem Value.setAt_diamond {path path' : List String} {owner owner' : String}
    {v a b new new' : Value} (hv : v.WellFormed)
    (ha : v.setAt owner path new = .ok a) (hb : v.setAt owner' path' new' = .ok b)
    (hdiverge : Diverge path path') :
    ∃ x y, a.setAt owner' path' new' = .ok x ∧ b.setAt owner path new = .ok y ∧
      OfLiteral x y := by
  induction path generalizing v a b owner owner' path' with
  | nil => exact hdiverge.elim
  | cons segment rest ih =>
  cases path' with
  | nil => exact hdiverge.elim
  | cons segment' rest' =>
  cases v with
  | document d =>
      obtain ⟨below, hbelow, rfl⟩ := setAt_document_iff.mp ha
      obtain ⟨below', hbelow', rfl⟩ := setAt_document_iff.mp hb
      by_cases hsegment : segment' = segment
      · subst hsegment
        have hrest : Diverge rest rest' := diverge_cons_self.mp hdiverge
        obtain ⟨x, y, hx, hy, hxy⟩ :=
          ih (Document.WellFormed.slot hv segment') hbelow hbelow' hrest
        exact ⟨_, _, setAt_insert_self hx, setAt_insert_self hy,
          (OfLiteral.same (document d)).insert hv.1 hv.1 hxy⟩
      · exact ⟨_, _, setAt_insert_of_ne hsegment hbelow',
          setAt_insert_of_ne (Ne.symm hsegment) hbelow, .insert_comm hv.1 hsegment below below'⟩
  | array items =>
      obtain ⟨i, below, hi, hpadding, hbelow, rfl⟩ := setAt_array_iff.mp ha
      obtain ⟨j, below', hj, hpadding', hbelow', rfl⟩ := setAt_array_iff.mp hb
      by_cases hij : i = j
      · subst hij
        have hrest : Diverge rest rest' := hdiverge.resolve_left fun h => h.2 i hi hj
        obtain ⟨x, y, hx, hy, hxy⟩ := ih (hv.element i) hbelow hbelow' hrest
        -- A null has given way to a document by now, and does so only once.
        have hslot : below.orDocument = below := orDocument_of_setAt hbelow hrest
        have hslot' : below'.orDocument = below' := orDocument_of_setAt hbelow' hrest.symm
        exact ⟨_, _, setAt_grown_self hj hslot hx, setAt_grown_self hi hslot' hy,
          (OfLiteral.same (array items)).grown hxy i⟩
      · refine ⟨_, _, setAt_grown_of_ne hij hj hpadding' hbelow',
          setAt_grown_of_ne (Ne.symm hij) hi hpadding hbelow, ?_⟩
        rw [grown_comm hij]
        exact .same _
  | _ => cases ha

/-! ## In a document -/

/-- The same document but for the order of keys, at every depth. -/
def Document.Reordered (d e : Document) : Prop := OfLiteral (.document d) (.document e)

namespace Document

variable {d e a b : Document} {path path' : String} {new new' : Value}

theorem Reordered.symm (h : d.Reordered e) (hd : d.WellFormed) : e.Reordered d :=
  OfLiteral.symm h hd

theorem Reordered.trans (h : a.Reordered d) (h' : d.Reordered e) (ha : a.WellFormed) :
    a.Reordered e :=
  OfLiteral.trans h h' ha

/-- What can be written below a document can be written into it, whatever leads to it. -/
theorem exists_set_of_setAt {owner : String} {after : Value}
    (h : (Value.document d).setAt owner (segments path) new = .ok after) :
    ∃ changed, d.set path new = .ok changed ∧ after = .document changed := by
  obtain ⟨first, rest, hsegments⟩ := exists_segments path
  rw [hsegments, Value.setAt_document_iff] at h
  obtain ⟨below, hbelow, rfl⟩ := h
  refine ⟨_, ?_, rfl⟩
  rw [set, hsegments]
  exact map_eq_ok_iff.mpr ⟨below, hbelow, rfl⟩

/-- One write can be done in another order of the keys. -/
theorem Reordered.set (h : d.Reordered e) (hd : d.WellFormed) (hset : d.set path new = .ok a) :
    ∃ b, e.set path new = .ok b ∧ a.Reordered b := by
  obtain ⟨after, hafter, hlike⟩ := OfLiteral.setAt h hd (setAt_of_set hset path)
  obtain ⟨b, hb, rfl⟩ := exists_set_of_setAt hafter
  exact ⟨b, hb, hlike⟩

theorem set_diamond (hd : d.WellFormed) (ha : d.set path new = .ok a)
    (hb : d.set path' new' = .ok b) (hdiverge : Diverging path path') :
    ∃ x y, a.set path' new' = .ok x ∧ b.set path new = .ok y ∧ x.Reordered y := by
  obtain ⟨v, w, hv, hw, hlike⟩ :=
    Value.setAt_diamond hd (setAt_of_set ha path) (setAt_of_set hb path) hdiverge
  obtain ⟨x, hx, rfl⟩ := exists_set_of_setAt hv
  obtain ⟨y, hy, rfl⟩ := exists_set_of_setAt hw
  exact ⟨x, y, hx, hy, hlike⟩

end Document

end DocStore
