import DocStore.Value
import Mathlib.Data.List.Nodup
import Mathlib.Data.List.Perm.Subperm

/-!
# Fields and parts of values

Tools for everything that is said about whole values.

- **Fields** (`Document.get?_eq_some_iff`, `Document.paired_swap`): in a
  document with distinct names a field is the same as an entry of the list,
  and a one-sided pairing of the fields of two documents of one length is a
  pairing in both directions.
- **Parts** (`Value.induction`): the values directly inside a value. What holds
  of a value as soon as it holds of its parts holds of every value; a
  well-formed value has well-formed parts and distinct names.

Writing and erasing a field keep names distinct and fields well formed.
-/

namespace DocStore

/-! ## Steps that may fail -/

section Steps

variable {ε α β : Type} {x : Except ε α} {b : β}

theorem ok_bind (a : α) (f : α → Except ε β) : .ok a >>= f = f a := rfl

theorem bind_eq_ok_iff {f : α → Except ε β} :
    x >>= f = .ok b ↔ ∃ a, x = .ok a ∧ f a = .ok b := by
  cases x <;> simp [bind, Except.bind]

theorem map_eq_ok_iff {f : α → β} : x.map f = .ok b ↔ ∃ a, x = .ok a ∧ f a = b := by
  cases x <;> simp [Except.map]

theorem map_eq_error_iff {f : α → β} {e : ε} : x.map f = .error e ↔ x = .error e := by
  cases x <;> simp [Except.map]

theorem isOk_iff : x.isOk = true ↔ ∃ a, x = .ok a := by
  cases x <;> simp [Except.isOk, Except.toBool]

end Steps

/-! ## Fields -/

namespace Document

theorem mem_of_get?_eq_some {d : Document} {key : String} {v : Value}
    (h : d.get? key = some v) : (key, v) ∈ d := by
  induction d with
  | nil => cases h
  | cons field rest ih =>
      obtain ⟨k, w⟩ := field
      rw [get?_cons] at h
      split at h
      · rename_i hk
        subst hk
        rw [Option.some.inj h]
        exact List.mem_cons_self ..
      · exact List.mem_cons_of_mem _ (ih h)

theorem mem_values_of_get? {d : Document} {key : String} {v : Value} (h : d.get? key = some v) :
    v ∈ d.map (·.2) :=
  List.mem_map.mpr ⟨_, mem_of_get?_eq_some h, rfl⟩

/-- With distinct names an entry is found under its name. -/
theorem get?_eq_some_iff {d : Document} (hd : d.keys.Nodup) {key : String} {v : Value} :
    d.get? key = some v ↔ (key, v) ∈ d := by
  refine ⟨mem_of_get?_eq_some, fun h => ?_⟩
  induction d with
  | nil => cases h
  | cons field rest ih =>
      obtain ⟨k, w⟩ := field
      rw [keys, List.map_cons, List.nodup_cons] at hd
      rw [get?_cons]
      rcases List.mem_cons.mp h with heq | hrest
      · obtain ⟨rfl, rfl⟩ := Prod.mk.injEq .. |>.mp heq
        rw [if_pos rfl]
      · have hne : key ≠ k := by
          rintro rfl
          exact hd.1 (List.mem_map.mpr ⟨(key, v), hrest, rfl⟩)
        rw [if_neg hne]
        exact ih hd.2 hrest

theorem mem_keys_iff {d : Document} {key : String} :
    key ∈ d.keys ↔ ∃ v, d.get? key = some v := by
  induction d with
  | nil => simp [keys, get?]
  | cons field rest ih =>
      obtain ⟨k, w⟩ := field
      rw [get?_cons]
      by_cases h : key = k
      · simp [keys, h]
      · have htail : key ∈ keys ((k, w) :: rest) ↔ key ∈ keys rest := by simp [keys, h]
        rw [htail, ih, if_neg h]

/-- If every field of one document has its like in another one of the same
length, then the names are the same, and every field of the other has its like
in the first. -/
theorem paired_swap {R : Value → Value → Prop} {xs ys : Document}
    (hx : xs.keys.Nodup) (hy : ys.keys.Nodup) (hlength : xs.length = ys.length)
    (h : ∀ field ∈ xs, ∃ y, ys.get? field.1 = some y ∧ R field.2 y) :
    ∀ field ∈ ys, ∃ x, xs.get? field.1 = some x ∧ R x field.2 := by
  have hsubset : xs.keys ⊆ ys.keys := by
    intro key hkey
    obtain ⟨field, hmem, rfl⟩ := List.mem_map.mp hkey
    obtain ⟨y, hget, -⟩ := h field hmem
    exact mem_keys_iff.mpr ⟨y, hget⟩
  have hperm : xs.keys.Perm ys.keys :=
    (hx.subperm hsubset).perm_of_length_le (by simp [keys, hlength])
  rintro ⟨key, y⟩ hmem
  have hkey : key ∈ xs.keys := hperm.mem_iff.mpr (List.mem_map.mpr ⟨_, hmem, rfl⟩)
  obtain ⟨x, hx'⟩ := mem_keys_iff.mp hkey
  obtain ⟨y', hget, hR⟩ := h (key, x) (mem_of_get?_eq_some hx')
  rw [(get?_eq_some_iff hy).mpr hmem] at hget
  obtain rfl := Option.some.inj hget
  exact ⟨x, hx', hR⟩

/-! ### One write after another -/

theorem insert_insert_self (d : Document) (key : String) (v w : Value) :
    (d.insert key v).insert key w = d.insert key w := by
  induction d with
  | nil => simp [insert]
  | cons field rest ih =>
      obtain ⟨k, x⟩ := field
      by_cases hk : k = key <;> simp [insert, hk, ih]

/-- Writing what is there changes nothing. -/
theorem insert_of_get? {d : Document} {key : String} {v : Value} (h : d.get? key = some v) :
    d.insert key v = d := by
  induction d with
  | nil => cases h
  | cons field rest ih =>
      obtain ⟨k, w⟩ := field
      rw [get?_cons] at h
      rw [insert]
      split at h
      · rename_i hk
        rw [if_pos hk.symm, Option.some.inj h]
      · rename_i hk
        rw [if_neg (Ne.symm hk), ih h]

/-! ### Distinct names after a write -/

theorem nodup_keys_insert {d : Document} (hd : d.keys.Nodup) (key : String) (v : Value) :
    (d.insert key v).keys.Nodup := by
  rw [keys_insert]
  split
  · exact hd
  · rename_i hnew
    refine List.nodup_append.mpr ⟨hd, List.nodup_singleton _, ?_⟩
    rintro a ha b hb rfl
    obtain rfl := List.mem_singleton.mp hb
    exact hnew ha

theorem nodup_keys_erase {d : Document} (hd : d.keys.Nodup) (key : String) :
    (d.erase key).keys.Nodup :=
  hd.sublist (List.filter_sublist.map _)

theorem mem_insert {d : Document} {key : String} {v : Value} {field : String × Value}
    (h : field ∈ d.insert key v) : field = (key, v) ∨ field ∈ d := by
  induction d with
  | nil => exact Or.inl (List.mem_singleton.mp h)
  | cons first rest ih =>
      obtain ⟨k, w⟩ := first
      rw [insert] at h
      split at h
      · rename_i hk
        subst hk
        exact (List.mem_cons.mp h).imp id (List.mem_cons_of_mem _)
      · rcases List.mem_cons.mp h with rfl | htail
        · exact Or.inr (List.mem_cons_self ..)
        · exact (ih htail).imp id (List.mem_cons_of_mem _)

end Document

/-! ## Parts -/

namespace Value

/-- The values directly inside a value. -/
def parts : Value → List Value
  | array items => items
  | document fields => fields.map (·.2)
  | scopedCode _ scope => scope.map (·.2)
  | _ => []

theorem sizeOf_field_lt {fields : List (String × Value)} {v : Value}
    (h : v ∈ fields.map (·.2)) : sizeOf v < sizeOf fields := by
  obtain ⟨⟨key, w⟩, hmem, rfl⟩ := List.mem_map.mp h
  have hlt := List.sizeOf_lt_of_mem hmem
  simp only [Prod.mk.sizeOf_spec] at hlt
  show sizeOf w < sizeOf fields
  omega

theorem sizeOf_part_lt {v w : Value} (h : w ∈ v.parts) : sizeOf w < sizeOf v := by
  cases v with
  | array items =>
      have hlt : sizeOf w < sizeOf items := List.sizeOf_lt_of_mem h
      simp only [array.sizeOf_spec]
      omega
  | document fields =>
      have hlt := sizeOf_field_lt h
      simp only [document.sizeOf_spec]
      omega
  | scopedCode source scope =>
      have hlt := sizeOf_field_lt h
      simp only [scopedCode.sizeOf_spec]
      omega
  | _ => cases h

/-- What passes from the parts of a value to the value holds of all values. -/
theorem induction {motive : Value → Prop}
    (step : ∀ v, (∀ w ∈ v.parts, motive w) → motive v) (v : Value) : motive v :=
  step v fun w _ => induction step w
termination_by sizeOf v
decreasing_by exact sizeOf_part_lt ‹_›

end Value

/-! ## Well-formed values -/

theorem allWellFormed_iff {items : List Value} :
    allWellFormed items ↔ ∀ v ∈ items, v.WellFormed := by
  induction items with
  | nil => simp [allWellFormed]
  | cons v rest ih => simp [allWellFormed, ih]

theorem fieldsWellFormed_iff {fields : List (String × Value)} :
    fieldsWellFormed fields ↔ ∀ field ∈ fields, field.2.WellFormed := by
  induction fields with
  | nil => simp [fieldsWellFormed]
  | cons field rest ih => rw [fieldsWellFormed, ih, List.forall_mem_cons]

theorem Value.WellFormed.parts {v : Value} (h : v.WellFormed) : ∀ w ∈ v.parts, w.WellFormed := by
  intro w hw
  cases v with
  | array items => exact allWellFormed_iff.mp h w hw
  | document fields =>
      obtain ⟨field, hmem, rfl⟩ := List.mem_map.mp hw
      exact fieldsWellFormed_iff.mp h.2 field hmem
  | scopedCode source scope =>
      obtain ⟨field, hmem, rfl⟩ := List.mem_map.mp hw
      exact fieldsWellFormed_iff.mp h.2 field hmem
  | _ => cases hw

namespace Document

/-- The names are distinct, here and in every document inside. -/
def WellFormed (d : Document) : Prop := (Value.document d).WellFormed

variable {d : Document}

theorem WellFormed.nodup (h : d.WellFormed) : d.keys.Nodup := h.1

theorem WellFormed.field (h : d.WellFormed) {field : String × Value} (hmem : field ∈ d) :
    field.2.WellFormed :=
  fieldsWellFormed_iff.mp h.2 field hmem

theorem WellFormed.get? (h : d.WellFormed) {key : String} {v : Value}
    (hv : d.get? key = some v) : v.WellFormed :=
  h.field (mem_of_get?_eq_some hv)

theorem WellFormed.insert (h : d.WellFormed) (key : String) {v : Value} (hv : v.WellFormed) :
    (d.insert key v).WellFormed := by
  refine ⟨nodup_keys_insert h.nodup key v, fieldsWellFormed_iff.mpr fun field hmem => ?_⟩
  rcases mem_insert hmem with rfl | hold
  · exact hv
  · exact h.field hold

theorem WellFormed.erase (h : d.WellFormed) (key : String) : (d.erase key).WellFormed :=
  ⟨nodup_keys_erase h.nodup key, fieldsWellFormed_iff.mpr fun _ hmem =>
    h.field (List.mem_filter.mp hmem).1⟩

theorem WellFormed.nil : WellFormed [] := ⟨List.nodup_nil, trivial⟩

end Document

end DocStore
