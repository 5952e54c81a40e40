import DocStore.Proofs.Commuting
import DocStore.Proofs.Pointwise

/-!
# Fields that are set together

Fields at paths that diverge are set as if all at once: the order in which they are
written does not matter but for the order of keys (`UpdateOperator.apply_set_perm`), and
to write them again changes nothing, as all of them are there
(`UpdateOperator.apply_set_again`).

Two orders of the same fields are not compared by swapping neighbours. Some order in
between may fail, as an array may have to grow in smaller steps. Instead the first field
of one list, which can be written at the start, is moved to the front of the other list
(`UpdateOperator.apply_set_front`).

An update that comes to a document which is the same as the old one leaves the old one.
This does not tell two orders apart either: what is the same as the old document is so in
every order of its keys.
-/

namespace DocStore

open DocStore.Path

open DocStore.Reordering

/-! ## Runs of writes -/

namespace UpdateOperator

variable {d e a b changed : Document} {fields fields' : List (String × Value)}
  {field : String × Value}

theorem apply_append (op : UpdateOperator) (d : Document) (fields fields' : List (String × Value)) :
    op.apply d (fields ++ fields') = op.apply d fields >>= fun after => op.apply after fields' := by
  induction fields generalizing d with
  | nil => rfl
  | cons field rest ih =>
      rw [List.cons_append, apply, apply, bind_assoc]
      exact bind_congr ih

theorem wellFormed_apply_set (hd : d.WellFormed) (hfields : ∀ field ∈ fields, field.2.WellFormed)
    (h : set.apply d fields = .ok changed) : changed.WellFormed :=
  (edits_apply h).wellFormed hfields hd

/-- A run of writes does the same in another order of the keys. -/
theorem apply_set_reordered (hlike : d.Reordered e) (hd : d.WellFormed)
    (hfields : ∀ field ∈ fields, field.2.WellFormed) (h : set.apply d fields = .ok a) :
    ∃ b, set.apply e fields = .ok b ∧ a.Reordered b := by
  induction fields generalizing d e with
  | nil =>
      obtain rfl := Except.ok.inj h
      exact ⟨e, rfl, hlike⟩
  | cons field rest ih =>
      obtain ⟨hfield, hrest⟩ := List.forall_mem_cons.mp hfields
      obtain ⟨after, hset, hrun⟩ := bind_eq_ok_iff.mp h
      obtain ⟨after', hset', hlike'⟩ := hlike.set hd hset
      obtain ⟨b, hrun', hb⟩ := ih hlike' (hd.set hfield hset) hrest hrun
      exact ⟨b, bind_eq_ok_iff.mpr ⟨after', hset', hrun'⟩, hb⟩

/-- A field that can be written before a run of others or after it, at a path that diverges
from theirs, comes to the same in both places. -/
theorem apply_set_strip (hd : d.WellFormed) (hfields : ∀ other ∈ fields, other.2.WellFormed)
    (hfield : field.2.WellFormed) (hdiverge : ∀ other ∈ fields, Diverging field.1 other.1)
    (hset : d.set field.1 field.2 = .ok a) (hrun : set.apply d fields = .ok e) :
    ∃ x y, e.set field.1 field.2 = .ok x ∧ set.apply a fields = .ok y ∧ x.Reordered y := by
  induction fields generalizing d a with
  | nil =>
      obtain rfl := Except.ok.inj hrun
      exact ⟨a, a, hset, rfl, .same _⟩
  | cons other rest ih =>
      obtain ⟨hother, hrest⟩ := List.forall_mem_cons.mp hfields
      obtain ⟨hfirst, hothers⟩ := List.forall_mem_cons.mp hdiverge
      obtain ⟨b, hb, hrun⟩ := bind_eq_ok_iff.mp hrun
      have hbwf : b.WellFormed := hd.set hother hb
      obtain ⟨v, w, hv, hw, hvw⟩ := Document.set_diamond hd hset hb hfirst
      obtain ⟨x, y, hx, hy, hxy⟩ := ih hbwf hrest hothers hw hrun
      have hvwf : v.WellFormed := (hd.set hfield hset).set hother hv
      obtain ⟨z, hz, hyz⟩ := apply_set_reordered (hvw.symm hvwf) (hbwf.set hfield hw) hrest hy
      have hxwf : x.WellFormed := (wellFormed_apply_set hbwf hrest hrun).set hfield hx
      exact ⟨x, z, hx, bind_eq_ok_iff.mpr ⟨v, hv, hz⟩, hxy.trans hyz hxwf⟩

/-- A field that can be written at the start is moved there from its place in a run. -/
theorem apply_set_front {left right : List (String × Value)} (hd : d.WellFormed)
    (hfields : ∀ other ∈ left ++ right, other.2.WellFormed) (hfield : field.2.WellFormed)
    (hdiverge : ∀ other ∈ left ++ right, Diverging field.1 other.1)
    (hset : d.set field.1 field.2 = .ok a) (hrun : set.apply d (left ++ field :: right) = .ok b) :
    ∃ c, set.apply a (left ++ right) = .ok c ∧ b.Reordered c := by
  obtain ⟨hleft, hright⟩ := List.forall_mem_append.mp hfields
  rw [apply_append] at hrun
  obtain ⟨e, he, hrun⟩ := bind_eq_ok_iff.mp hrun
  obtain ⟨x, hx, hrun⟩ := bind_eq_ok_iff.mp hrun
  obtain ⟨x', y, hx', hy, hlike⟩ :=
    apply_set_strip hd hleft hfield (List.forall_mem_append.mp hdiverge).1 hset he
  obtain rfl := Except.ok.inj (hx.symm.trans hx')
  have hxwf : x.WellFormed := (wellFormed_apply_set hd hleft he).set hfield hx
  obtain ⟨c, hc, hbc⟩ := apply_set_reordered hlike hxwf hright hrun
  refine ⟨c, ?_, hbc⟩
  rw [apply_append]
  exact bind_eq_ok_iff.mpr ⟨y, hy, hc⟩

/-- Fields at paths that diverge can be written in any order. -/
theorem apply_set_perm (hd : d.WellFormed) (hfields : ∀ field ∈ fields, field.2.WellFormed)
    (hdiverge : fields.Pairwise fun f g => Diverging f.1 g.1) (hperm : fields.Perm fields')
    (ha : set.apply d fields = .ok a) (hb : set.apply d fields' = .ok b) : a.Reordered b := by
  induction fields generalizing d b fields' with
  | nil =>
      obtain rfl := hperm.nil_eq
      obtain rfl := Except.ok.inj (ha.symm.trans hb)
      exact .same _
  | cons field rest ih =>
      have hawf : a.WellFormed := wellFormed_apply_set hd hfields ha
      have hbwf : b.WellFormed :=
        wellFormed_apply_set hd (fun other hother => hfields other (hperm.mem_iff.mpr hother)) hb
      obtain ⟨hfield, hrest⟩ := List.forall_mem_cons.mp hfields
      obtain ⟨hfirst, hpairwise⟩ := List.pairwise_cons.mp hdiverge
      obtain ⟨after, hset, ha⟩ := bind_eq_ok_iff.mp ha
      obtain ⟨left, right, rfl⟩ := List.append_of_mem (hperm.mem_iff.mp (List.mem_cons_self ..))
      have hothers : rest.Perm (left ++ right) := (hperm.trans List.perm_middle).cons_inv
      obtain ⟨c, hc, hbc⟩ := apply_set_front hd
        (fun other hother => hrest other (hothers.mem_iff.mpr hother)) hfield
        (fun other hother => hfirst other (hothers.mem_iff.mpr hother)) hset hb
      have hac : a.Reordered c := ih (hd.set hfield hset) hrest hpairwise hothers ha hc
      exact hac.trans (hbc.symm hbwf) hawf

end UpdateOperator

/-! ## Writing again -/

/-- What is there and is not to be written over whole is no null. -/
theorem Value.setAt_orDocument {v new changed : Value} {owner : String} {path : List String}
    (h : v.descend? path = some new) (hset : v.setAt owner path new = .ok changed) :
    v.orDocument.setAt owner path new = .ok changed := by
  cases path with
  | nil =>
      rw [setAt] at hset ⊢
      exact hset
  | cons segment rest =>
      cases v with
      | null => cases h
      | _ => exact hset

/-- To write what is there changes nothing. -/
theorem Value.setAt_of_descend? {v new : Value} {path : List String} (owner : String)
    (h : v.descend? path = some new) : v.setAt owner path new = .ok v := by
  induction path generalizing v owner with
  | nil =>
      obtain rfl := Option.some.inj h
      rw [setAt]
  | cons segment rest ih =>
      obtain ⟨child, hchild, hrest⟩ := Option.bind_eq_some_iff.mp h
      cases v with
      | document d =>
          have hread : Document.get? d segment = some child := hchild
          refine setAt_document_iff.mpr ⟨child, ?_, by rw [Document.insert_of_get? hread]⟩
          rw [hread, Option.getD_some]
          exact ih segment hrest
      | array items =>
          obtain ⟨i, hi, hitem⟩ := Option.bind_eq_some_iff.mp hchild
          have hlt : i < items.length := (List.getElem?_eq_some_iff.mp hitem).1
          refine setAt_array_iff.mpr ⟨i, child, hi, by omega, ?_, by rw [grown_eq_self hitem]⟩
          rw [hitem, Option.getD_some]
          exact setAt_orDocument hrest (ih segment hrest)
      | _ => cases hchild

namespace UpdateOperator

variable {d changed : Document} {fields : List (String × Value)}

/-- A run of writes at paths that diverge from a key does not change what is found there. -/
theorem descend?_of_apply_set {key : List String} {v : Value}
    (h : set.apply d fields = .ok changed)
    (hfields : ∀ field ∈ fields, Diverge (segments field.1) key)
    (hfound : (Value.document d).descend? key = some v) :
    (Value.document changed).descend? key = some v := by
  induction fields generalizing d with
  | nil => exact Except.ok.inj h ▸ hfound
  | cons field rest ih =>
      obtain ⟨hfirst, hrest⟩ := List.forall_mem_cons.mp hfields
      obtain ⟨after, hset, h⟩ := bind_eq_ok_iff.mp h
      refine ih h hrest ?_
      rcases Value.descend?_setAt (Document.setAt_of_set hset field.1) hfirst with hkept | hmissing
      · exact hkept.trans hfound
      · cases hmissing.1.symm.trans hfound

/-- All that has been written can be found by its segments. -/
theorem descend?_of_mem_apply_set (h : set.apply d fields = .ok changed)
    (hdiverge : fields.Pairwise fun f g => Diverging f.1 g.1) :
    ∀ field ∈ fields, (Value.document changed).descend? (segments field.1) = some field.2 := by
  induction fields generalizing d with
  | nil => exact List.forall_mem_nil _
  | cons field rest ih =>
      obtain ⟨after, hset, h⟩ := bind_eq_ok_iff.mp h
      obtain ⟨hfirst, hrest⟩ := List.pairwise_cons.mp hdiverge
      refine List.forall_mem_cons.mpr ⟨?_, ih h hrest⟩
      refine descend?_of_apply_set h (fun other hother => (hfirst other hother).symm) ?_
      exact Value.descend?_setAt_self (Document.setAt_of_set hset field.1)

/-- To write all fields again changes nothing. -/
theorem apply_set_again (hdiverge : fields.Pairwise fun f g => Diverging f.1 g.1)
    (h : set.apply d fields = .ok changed) : set.apply changed fields = .ok changed := by
  have hfound := descend?_of_mem_apply_set h hdiverge
  clear h hdiverge
  induction fields with
  | nil => rfl
  | cons field rest ih =>
      obtain ⟨hfirst, hrest⟩ := List.forall_mem_cons.mp hfound
      have hself := Value.setAt_of_descend? field.1 hfirst
      obtain ⟨after, hset, heq⟩ := Document.exists_set_of_setAt hself
      obtain rfl := Value.document.inj heq
      exact bind_eq_ok_iff.mpr ⟨changed, hset, ih hrest⟩

/-- On insertion or not, a field of a document that is there is set in the same way. -/
theorem apply_setOnInsert (d : Document) (fields : List (String × Value)) :
    setOnInsert.apply d fields = set.apply d fields := by
  induction fields generalizing d with
  | nil => rfl
  | cons field rest ih => exact bind_congr ih

end UpdateOperator

/-! ## Updates -/

namespace Update

variable {u u' : Update} {d changed changed' : Document} {differs differs' : Bool}

/-- All operators of the update set fields. -/
def OnlySets : Update → Prop
  | replacement _ => False
  | operators ops => ∀ op ∈ ops, op.1 = .set ∨ op.1 = .setOnInsert

theorem applyOperators_eq_apply_set {ops : List (UpdateOperator × Document)}
    (h : (operators ops).OnlySets) (d : Document) :
    applyOperators d ops = UpdateOperator.set.apply d (operators ops).fields := by
  induction ops generalizing d with
  | nil => rfl
  | cons op rest ih =>
      obtain ⟨op, fields⟩ := op
      obtain ⟨hop, hrest⟩ := List.forall_mem_cons.mp h
      have hfirst : op.apply d fields = UpdateOperator.set.apply d fields := by
        rcases hop with rfl | rfl
        · rfl
        · exact UpdateOperator.apply_setOnInsert d fields
      have hfields : (operators ((op, fields) :: rest)).fields =
          fields ++ (operators rest).fields := List.flatMap_cons
      rw [hfields, UpdateOperator.apply_append, applyOperators, hfirst]
      exact bind_congr (ih hrest)

/-- The fields are set one after the other, under whichever operator they stand. -/
theorem OnlySets.apply_eq (h : u.OnlySets) (d : Document) :
    u.apply d = (UpdateOperator.set.apply d u.fields).map fun updated =>
      if updated.same d then (d, false) else (updated, true) := by
  cases u with
  | replacement r => exact h.elim
  | operators ops =>
      rw [apply_operators, applyOperators_eq_apply_set h]

/-- In a document that has changed every field is found by its segments. -/
theorem apply_found (hsets : u.OnlySets)
    (hdiverge : u.fields.Pairwise fun f g => Diverging f.1 g.1)
    (h : u.apply d = .ok (changed, true)) :
    ∀ field ∈ u.fields, (Value.document changed).descend? (segments field.1) = some field.2 := by
  rw [hsets.apply_eq] at h
  obtain ⟨updated, hupdated, h⟩ := map_eq_ok_iff.mp h
  split at h
  · cases h
  · obtain ⟨rfl, -⟩ := Prod.mk.inj h
    exact UpdateOperator.descend?_of_mem_apply_set hupdated hdiverge

/-- Two updates that set the same fields leave the same document, but for the order of keys. -/
theorem apply_perm (hd : d.WellFormed) (hu : u.WellFormed) (hsets : u.OnlySets)
    (hsets' : u'.OnlySets) (hdiverge : u.fields.Pairwise fun f g => Diverging f.1 g.1)
    (hperm : u.fields.Perm u'.fields) (h : u.apply d = .ok (changed, differs))
    (h' : u'.apply d = .ok (changed', differs')) :
    changed.Reordered changed' ∧ differs = differs' := by
  rw [hsets.apply_eq] at h
  rw [hsets'.apply_eq] at h'
  obtain ⟨updated, hupdated, h⟩ := map_eq_ok_iff.mp h
  obtain ⟨updated', hupdated', h'⟩ := map_eq_ok_iff.mp h'
  have hlike : updated.Reordered updated' :=
    UpdateOperator.apply_set_perm hd hu.fields hdiverge hperm hupdated hupdated'
  have hwf : updated.WellFormed := UpdateOperator.wellFormed_apply_set hd hu.fields hupdated
  -- Both are the old document again, or neither is.
  have hsame : updated.same d = updated'.same d := OfLiteral.same_eq hlike hwf hd
  rw [← hsame] at h'
  by_cases hkept : updated.same d = true
  · rw [if_pos hkept] at h h'
    obtain ⟨rfl, rfl⟩ := Prod.mk.inj (h.symm.trans h')
    exact ⟨.same _, rfl⟩
  · rw [if_neg hkept] at h h'
    obtain ⟨rfl, rfl⟩ := Prod.mk.inj h
    obtain ⟨rfl, rfl⟩ := Prod.mk.inj h'
    exact ⟨hlike, rfl⟩

/-- Set once more, the fields stay. -/
theorem apply_again (hsets : u.OnlySets)
    (hdiverge : u.fields.Pairwise fun f g => Diverging f.1 g.1)
    (h : u.apply d = .ok (changed, differs)) :
    ∃ again, u.apply changed = .ok (changed, again) := by
  have hrun := h
  rw [hsets.apply_eq] at h
  obtain ⟨updated, hupdated, h⟩ := map_eq_ok_iff.mp h
  split at h
  · obtain ⟨rfl, rfl⟩ := Prod.mk.inj h
    exact ⟨false, hrun⟩
  · obtain ⟨rfl, -⟩ := Prod.mk.inj h
    rw [hsets.apply_eq, UpdateOperator.apply_set_again hdiverge hupdated, Except.map]
    split <;> exact ⟨_, rfl⟩

/-- Fields that are set at paths that diverge are set all at once. Each of them is there if anything
has changed. In another order or under the other operator they come to the same, but for the order
of keys; once they are set they stay when they are set again, and that is no change but where there
is a NaN. -/
theorem sets_at_once (hd : d.WellFormed) (hu : u.WellFormed) (hsets : u.OnlySets)
    (hdiverge : u.fields.Pairwise fun f g => Diverging f.1 g.1)
    (h : u.apply d = .ok (changed, differs)) :
    (differs = true → ∀ field ∈ u.fields,
      (Value.document changed).descend? (segments field.1) = some field.2) ∧
    (∀ (u' : Update) changed' differs', u'.OnlySets → u.fields.Perm u'.fields →
      u'.apply d = .ok (changed', differs') →
        changed.Reordered changed' ∧ differs = differs') ∧
    ∃ again, u.apply changed = .ok (changed, again) ∧
      (again = false ↔ (Value.document changed).NaNFree) := by
  refine ⟨?_, fun u' changed' differs' hsets' hperm h' =>
    apply_perm hd hu hsets hsets' hdiverge hperm h h', ?_⟩
  · rintro rfl
    exact apply_found hsets hdiverge h
  · have hchanged : changed.WellFormed := apply_wellFormed hu hd h
    obtain ⟨again, hagain⟩ := apply_again hsets hdiverge h
    refine ⟨again, hagain, ?_⟩
    rw [differs_of_apply hu hchanged hagain, Bool.not_eq_false']
    exact Value.same_self_iff hchanged

/-- Two documents in one array, one in place of a null and one past the end, and two fields of a
document that is not there. -/
theorem sets_at_once_shared :
    let d : Document := [("a", .array [.null])]
    let first : Document := [("a.2.x", .int32 1), ("b.c", .int32 2)]
    let second : Document := [("a.0.k", .null), ("b.d", .string "y")]
    let u : Update := .operators [(.set, first), (.setOnInsert, second)]
    let u' : Update := .operators [(.set, second), (.setOnInsert, first)]
    let items : Value := .array [.document [("k", .null)], .null, .document [("x", .int32 1)]]
    let changed : Document :=
      [("a", items), ("b", .document [("c", .int32 2), ("d", .string "y")])]
    let changed' : Document :=
      [("a", items), ("b", .document [("d", .string "y"), ("c", .int32 2)])]
    u.apply d = .ok (changed, true) ∧ u'.apply d = .ok (changed', true) ∧
      (Value.document changed).descend? (segments "a.2.x") = some (.int32 1) ∧
      changed.Reordered changed' ∧ u.apply changed = .ok (changed, false) := by
  intro d first second u u' items changed changed'
  have hd : d.WellFormed := by
    simp [d, Document.WellFormed, Value.WellFormed, fieldsWellFormed, allWellFormed]
  have hu : u.WellFormed := by
    simp [u, first, second, WellFormed, Document.WellFormed, Value.WellFormed, fieldsWellFormed]
  have hsets : u.OnlySets := by simp [u, OnlySets]
  have hsets' : u'.OnlySets := by simp [u', OnlySets]
  have happly : u.apply d = .ok (changed, true) := by rfl
  have happly' : u'.apply d = .ok (changed', true) := by rfl
  obtain ⟨hfound, horder, again, hagain, hfree⟩ := sets_at_once hd hu hsets (by decide) happly
  have hperm : u.fields.Perm u'.fields := List.perm_append_comm
  have hself : (Value.document changed).NaNFree :=
    (Value.same_self_iff (apply_wellFormed hu hd happly)).mp (by decide)
  have hlike := (horder u' changed' true hsets' hperm happly').1
  have hfield := hfound rfl ("a.2.x", .int32 1) (List.mem_cons_self ..)
  exact ⟨happly, happly', hfield, hlike, hfree.mpr hself ▸ hagain⟩

end Update

end DocStore
