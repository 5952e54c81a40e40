import DocStore.Proofs.Paths
import DocStore.Update.Upsert
import Mathlib.Logic.Relation

/-!
# An update is a run of writes

Whatever the operator, what is done to one field of a document is one of three
writes, or two of them in a row (`Edit`, `UpdateOperator.edits_applyField`).
An update of a document is then a run of such writes at the paths that it
names (`Update.edits_applyOperators`), and what every single write keeps the
update keeps: the fields that none of its paths is under, and the distinct
names.
-/

namespace DocStore

open DocStore.Path

/-! ## One write -/

/-- A write at a path, of a value that comes from the operand and from what is
in the document. -/
inductive Edit (path : String) (operand : Value) (d changed : Document) : Prop where
  | set {v : Value} (hv : operand.WellFormed → v.WellFormed) (h : d.set path v = .ok changed)
  | replace {v : Value} (hv : operand.WellFormed → d.WellFormed → v.WellFormed)
      (h : d.replace? path v = some changed)
  | remove {v : Value} (h : d.remove? path = some (v, changed))

namespace Edit

variable {path key : String} {operand : Value} {d changed : Document}

/-- A write leaves every field alone that its path is not under. -/
theorem get?_eq (h : Edit path operand d changed) (hkey : ¬ Under path key) :
    changed.get? key = d.get? key := by
  cases h with
  | set _ h => exact Document.get?_set h hkey
  | replace _ h => exact Document.get?_replace? h hkey
  | remove h => exact Document.get?_remove? h hkey

theorem wellFormed (h : Edit path operand d changed) (hoperand : operand.WellFormed)
    (hd : d.WellFormed) : changed.WellFormed := by
  cases h with
  | set hv h => exact hd.set (hv hoperand) h
  | replace hv h => exact hd.replace? (hv hoperand hd) h
  | remove h => exact hd.remove? h

end Edit

/-! ## Runs of writes -/

/-- Writes one after the other, each at one of the fields. -/
abbrev Edits (fields : List (String × Value)) : Document → Document → Prop :=
  Relation.ReflTransGen fun d changed => ∃ field ∈ fields, Edit field.1 field.2 d changed

namespace Edits

variable {fields : List (String × Value)} {d changed : Document}

theorem get?_eq (h : Edits fields d changed) {key : String}
    (hkey : ∀ field ∈ fields, ¬ Under field.1 key) : changed.get? key = d.get? key := by
  induction h with
  | refl => rfl
  | tail _ hedit ih =>
      obtain ⟨field, hmem, hedit⟩ := hedit
      rw [hedit.get?_eq (hkey field hmem), ih]

theorem wellFormed (h : Edits fields d changed) (hfields : ∀ field ∈ fields, field.2.WellFormed)
    (hd : d.WellFormed) : changed.WellFormed := by
  induction h with
  | refl => exact hd
  | tail _ hedit ih =>
      obtain ⟨field, hmem, hedit⟩ := hedit
      exact hedit.wellFormed (hfields field hmem) ih

theorem mono {more : List (String × Value)} (hsubset : fields ⊆ more)
    (h : Edits fields d changed) : Edits more d changed :=
  h.lift id fun _ _ ⟨field, hmem, hedit⟩ => ⟨field, hsubset hmem, hedit⟩

theorem of_edit {field : String × Value} (h : Edit field.1 field.2 d changed) :
    Edits [field] d changed :=
  .single ⟨field, List.mem_singleton_self _, h⟩

end Edits

/-! ## The operators -/

theorem wideInteger?_wellFormed {n : Int} {v : Value} (h : wideInteger? n = some v) :
    v.WellFormed := by
  unfold wideInteger? at h
  split at h
  · exact Option.some.inj h ▸ trivial
  · cases h

theorem addIntegers_wellFormed {a b sum : Value} (h : addIntegers a b = some (some sum)) :
    sum.WellFormed := by
  unfold addIntegers at h
  split at h
  · dsimp only at h
    split at h <;> exact Option.some.inj (Option.some.inj h) ▸ trivial
  · exact wideInteger?_wellFormed (Option.some.inj h)
  · exact wideInteger?_wellFormed (Option.some.inj h)
  · exact wideInteger?_wellFormed (Option.some.inj h)
  · cases h

namespace Document

variable {d changed : Document} {path : String} {operand : Value}

/-- A missing field is set to zero first; then the sum is written, if there is
one. -/
theorem increment_cases (h : d.increment path operand = .ok changed) :
    ∃ created, (created = d ∨ d.set path (.int32 0) = .ok created) ∧
      (changed = created ∨ ∃ current sum, created.resolve? path = some current ∧
        addIntegers current operand = some (some sum) ∧
        changed = (created.replace? path sum).getD created) := by
  unfold increment at h
  dsimp only at h
  -- Whether the field was there or not, the rest is the same.
  split at h
  all_goals
    obtain ⟨created, hcreated, h⟩ := bind_eq_ok_iff.mp h
    refine ⟨created, ?_, ?_⟩
    · first
      | exact Or.inl (Except.ok.inj hcreated).symm
      | exact Or.inr hcreated
    · split at h
      · exact Or.inl (Except.ok.inj h).symm
      · rename_i current hcurrent
        split at h
        · exact Or.inl (Except.ok.inj h).symm
        · cases h
        · rename_i sum hsum
          exact Or.inr ⟨current, sum, hcurrent, hsum, (Except.ok.inj h).symm⟩

theorem edits_increment (h : d.increment path operand = .ok changed) :
    Edits [(path, operand)] d changed := by
  obtain ⟨created, hcreated, hchanged⟩ := increment_cases h
  have hset : Edits [(path, operand)] d created := by
    rcases hcreated with rfl | hcreated
    · exact .refl
    · exact Edits.of_edit (.set (v := .int32 0) (fun _ => trivial) hcreated)
  refine hset.trans ?_
  rcases hchanged with rfl | ⟨current, sum, -, hsum, rfl⟩
  · exact .refl
  · cases hreplace : created.replace? path sum with
    | none => exact .refl
    | some after => exact Edits.of_edit (.replace (fun _ _ => addIntegers_wellFormed hsum) hreplace)

theorem edits_push (d : Document) (path : String) (operand : Value) :
    Edits [(path, operand)] d (d.push path operand) := by
  unfold push
  split
  · rename_i items hitems
    cases hreplace : d.replace? path (.array (items ++ [operand])) with
    | none => exact .refl
    | some after =>
        refine Edits.of_edit (.replace (fun hoperand hd => ?_) hreplace)
        refine Value.wellFormed_array_iff.mpr fun v hv => ?_
        rcases List.mem_append.mp hv with hold | hnew
        · exact (hd.resolve? hitems).parts v hold
        · exact List.mem_singleton.mp hnew ▸ hoperand
  · exact .refl

theorem edits_unset (d : Document) (path : String) (operand : Value) :
    Edits [(path, operand)] d (d.unset path) := by
  unfold unset
  split
  · rename_i removed rest hremove
    exact Edits.of_edit (.remove hremove)
  · exact .refl

end Document

namespace UpdateOperator

variable {op : UpdateOperator} {d changed : Document}

theorem edits_applyField {path : String} {operand : Value}
    (h : op.applyField d path operand = .ok changed) : Edits [(path, operand)] d changed := by
  cases op with
  | set | setOnInsert => exact Edits.of_edit (.set id h)
  | unset => exact Except.ok.inj h ▸ d.edits_unset path operand
  | increment => exact Document.edits_increment h
  | push => exact Except.ok.inj h ▸ d.edits_push path operand

theorem edits_apply {fields : List (String × Value)} (h : op.apply d fields = .ok changed) :
    Edits fields d changed := by
  induction fields generalizing d with
  | nil => exact Except.ok.inj h ▸ .refl
  | cons field rest ih =>
      obtain ⟨after, hafter, h⟩ := bind_eq_ok_iff.mp h
      have hfirst : Edits (field :: rest) d after := (edits_applyField hafter).mono (by simp)
      exact hfirst.trans ((ih h).mono (List.subset_cons_self ..))

end UpdateOperator

/-! ## Updates -/

namespace Update

variable {d changed : Document} {ops : List (UpdateOperator × Document)}

/-- All fields that an update names, under any of its operators. -/
def fields : Update → List (String × Value)
  | replacement _ => []
  | operators ops => ops.flatMap (·.2)

theorem edits_applyOperators (h : applyOperators d ops = .ok changed) :
    Edits (operators ops).fields d changed := by
  induction ops generalizing d with
  | nil => exact Except.ok.inj h ▸ .refl
  | cons op rest ih =>
      obtain ⟨after, hafter, h⟩ := bind_eq_ok_iff.mp h
      have hfirst : Edits (operators (op :: rest)).fields d after :=
        (UpdateOperator.edits_apply hafter).mono (by simp [fields])
      exact hfirst.trans ((ih h).mono (by simp [fields]))

/-- A document that the operators do not make another one is left as it was. -/
theorem apply_operators (ops : List (UpdateOperator × Document)) (d : Document) :
    (operators ops).apply d = (applyOperators d ops).map fun updated =>
      if updated.same d then (d, false) else (updated, true) := by
  rw [apply]
  cases applyOperators d ops with
  | error e => rfl
  | ok updated =>
      simp only [ok_bind, Except.map]
      split <;> rfl

/-- An update in place is a run of writes at the fields that it names. -/
theorem edits_apply {u : Update} {differs : Bool} (h : u.apply d = .ok (changed, differs)) :
    Edits u.fields d changed := by
  cases u with
  | replacement r => cases h
  | operators ops =>
      rw [apply_operators] at h
      obtain ⟨updated, hupdated, h⟩ := map_eq_ok_iff.mp h
      split at h
      · obtain ⟨rfl, -⟩ := Prod.mk.inj h
        exact .refl
      · obtain ⟨rfl, -⟩ := Prod.mk.inj h
        exact edits_applyOperators hupdated

theorem parse_single (op : UpdateOperator) (fields : Document) :
    parse [(op.key, .document fields)] = .ok (operators [(op, fields)]) := by
  have hkey : Document.isOperatorKey op.key = true := by cases op <;> decide
  simp [parse, Document.hasOperatorKey, Document.keys, parseOperators, hkey,
    UpdateOperator.ofKey?_key, Except.map]

theorem apply_single (op : UpdateOperator) (fields d : Document) :
    (parse [(op.key, .document fields)] >>= fun u => u.apply d) =
      (op.apply d fields).map fun updated =>
        if updated.same d then (d, false) else (updated, true) := by
  rw [parse_single, ok_bind, apply_operators, applyOperators]
  cases op.apply d fields <;> rfl

theorem fieldsOf_subset (wanted : UpdateOperator) :
    fieldsOf ops wanted ⊆ (operators ops).fields := by
  intro field hmem
  obtain ⟨op, hop, hfield⟩ := List.mem_flatMap.mp hmem
  exact List.mem_flatMap.mpr ⟨op, (List.mem_filter.mp hop).1, hfield⟩

/-- An upsert sets the pinned fields of the filter first; then comes whatever
the operators do. -/
theorem upsertDocument_operators {f : Filter} (h : (operators ops).upsertDocument f = .ok d) :
    ∃ pinned, UpdateOperator.set.apply [] f.pinnedFields = .ok pinned ∧
      Edits (operators ops).fields pinned d := by
  unfold upsertDocument at h
  dsimp only at h
  split at h
  · cases h
  · obtain ⟨pinned, hpinned, h⟩ := bind_eq_ok_iff.mp h
    obtain ⟨set, hset, h⟩ := bind_eq_ok_iff.mp h
    obtain ⟨inserted, hinserted, h⟩ := bind_eq_ok_iff.mp h
    have hrest : (operators (ops.filter fun op => op.1 != .set && op.1 != .setOnInsert)).fields
        ⊆ (operators ops).fields := by
      intro field hmem
      obtain ⟨op, hop, hfield⟩ := List.mem_flatMap.mp hmem
      exact List.mem_flatMap.mpr ⟨op, (List.mem_filter.mp hop).1, hfield⟩
    have hset' := (UpdateOperator.edits_apply hset).mono (fieldsOf_subset .set)
    have hinserted' := (UpdateOperator.edits_apply hinserted).mono (fieldsOf_subset .setOnInsert)
    exact ⟨pinned, hpinned, (hset'.trans hinserted').trans ((edits_applyOperators h).mono hrest)⟩

/-- An upsert inserts the replacement, or what the pinned fields and the fields
of the update write into the empty document. -/
theorem edits_upsertDocument {u : Update} {f : Filter} (h : u.upsertDocument f = .ok d) :
    u = .replacement d ∨ Edits (f.pinnedFields ++ u.fields) [] d := by
  cases u with
  | replacement r => exact Or.inl (congrArg _ (Except.ok.inj h))
  | operators ops =>
      obtain ⟨pinned, hpinned, hedits⟩ := upsertDocument_operators h
      have hpinned' := (UpdateOperator.edits_apply hpinned).mono
        (List.subset_append_left _ (operators ops).fields)
      exact Or.inr (hpinned'.trans (hedits.mono (List.subset_append_right f.pinnedFields _)))

/-! ### Distinct names -/

/-- The documents in the update have distinct names. -/
def WellFormed : Update → Prop
  | replacement d => d.WellFormed
  | operators ops => ∀ op ∈ ops, op.2.WellFormed

theorem WellFormed.fields {u : Update} (h : u.WellFormed) :
    ∀ field ∈ u.fields, field.2.WellFormed := by
  intro field hmem
  cases u with
  | replacement r => cases hmem
  | operators ops =>
      obtain ⟨op, hop, hfield⟩ := List.mem_flatMap.mp hmem
      exact (h op hop).field hfield

theorem parseOperators_wellFormed {fields : List (String × Value)}
    (hfields : ∀ field ∈ fields, field.2.WellFormed) (h : parseOperators fields = .ok ops) :
    (operators ops).WellFormed := by
  induction fields generalizing ops with
  | nil =>
      obtain rfl := Except.ok.inj h
      intro op hop
      cases hop
  | cons field rest ih =>
      obtain ⟨key, operand⟩ := field
      rw [List.forall_mem_cons] at hfields
      unfold parseOperators at h
      split at h
      · exact ih hfields.2 h
      · obtain ⟨others, hothers, rfl⟩ := map_eq_ok_iff.mp h
        exact List.forall_mem_cons.mpr ⟨hfields.1, ih hfields.2 hothers⟩
      · cases h

theorem parse_wellFormed {spec : Document} {u : Update} (hspec : spec.WellFormed)
    (h : parse spec = .ok u) : u.WellFormed := by
  unfold parse at h
  split at h
  · exact Except.ok.inj h ▸ hspec
  · dsimp only at h
    split at h
    · obtain ⟨ops, hops, rfl⟩ := map_eq_ok_iff.mp h
      exact parseOperators_wellFormed (fun _ => hspec.field) hops
    · cases h

theorem apply_wellFormed {u : Update} {differs : Bool} (hu : u.WellFormed) (hd : d.WellFormed)
    (h : u.apply d = .ok (changed, differs)) : changed.WellFormed :=
  (edits_apply h).wellFormed hu.fields hd

end Update

/-- The values in the entries of the filter have distinct names. -/
def Filter.WellFormed (f : Filter) : Prop :=
  ∀ key v, (key, Condition.value v) ∈ f → v.WellFormed

theorem pinnedValue?_wellFormed {key : String} {v pinned : Value} (hv : v.WellFormed)
    (h : pinnedValue? key v = some pinned) : pinned.WellFormed := by
  unfold pinnedValue? at h
  split at h
  · cases h
  · split at h
    · rename_i d
      split at h
      · exact Option.some.inj h ▸ hv
      · split at h
        · rename_i operator operand
          split at h
          · exact Option.some.inj h ▸ Document.WellFormed.field hv (List.mem_singleton_self _)
          · cases h
        · cases h
    · split at h
      · cases h
      · exact Option.some.inj h ▸ hv
    · cases h
    · exact Option.some.inj h ▸ hv

theorem Filter.WellFormed.pinnedFields {f : Filter} (h : f.WellFormed) :
    ∀ field ∈ f.pinnedFields, field.2.WellFormed := by
  intro field hmem
  obtain ⟨⟨key, c⟩, hc, hmap⟩ := List.mem_filterMap.mp hmem
  obtain ⟨pinned, hpinned, rfl⟩ := Option.map_eq_some_iff.mp hmap
  cases c with
  | value v => exact pinnedValue?_wellFormed (h key v hc) hpinned
  | _ => cases hpinned

theorem Update.upsertDocument_wellFormed {u : Update} {f : Filter} {d : Document}
    (hu : u.WellFormed) (hf : f.WellFormed) (h : u.upsertDocument f = .ok d) : d.WellFormed := by
  rcases edits_upsertDocument h with rfl | hedits
  · exact hu
  · refine hedits.wellFormed (fun field hmem => ?_) .nil
    rcases List.mem_append.mp hmem with hpinned | hnamed
    · exact hf.pinnedFields field hpinned
    · exact hu.fields field hnamed

end DocStore
