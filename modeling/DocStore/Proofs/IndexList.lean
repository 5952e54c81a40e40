import DocStore.Proofs.Bookkeeping
import DocStore.Proofs.Reflexivity
import Mathlib.Data.List.Induction

/-!
# The list of indexes

The indexes of a collection are a map by name that keeps the order in which the
names came up: an index takes the place of the one of its name
(`Collection.names_recordIndex`, `Collection.mem_recordIndex`). So after a run
the names are those of the indexes that were created, each where it came up
first, and under each name stands the index that was created last
(`IndexModel.LastIn`).

A name that is derived leaves the directions out, so two indexes that are
created in one call can have the same name, and only the later one is listed.
-/

namespace DocStore

/-! ## The last index of a name -/

namespace IndexModel

/-- No index that was created later has the name. -/
def LastIn (m : IndexModel) (created : List IndexModel) : Prop :=
  ∃ earlier later, created = earlier ++ m :: later ∧ ∀ other ∈ later, other.name ≠ m.name

/-- The index as a collection of that name lists it. -/
def info (m : IndexModel) (fullName : String) : IndexInfo :=
  ⟨1, m.keys, m.name, m.options.unique.getD false, fullName⟩

theorem lastIn_nil (m : IndexModel) : ¬ m.LastIn [] := by
  rintro ⟨earlier, later, hcreated, -⟩
  exact List.append_ne_nil_of_right_ne_nil _ (List.cons_ne_nil _ _) hcreated.symm

theorem lastIn_append_singleton {m newest : IndexModel} {created : List IndexModel} :
    m.LastIn (created ++ [newest]) ↔ m = newest ∨ m.LastIn created ∧ m.name ≠ newest.name := by
  constructor
  · rintro ⟨earlier, later, hcreated, hlast⟩
    induction later using List.reverseRecOn with
    | nil => exact Or.inl (List.cons.inj (List.append_inj' hcreated rfl).2).1.symm
    | append_singleton others last =>
        rw [← List.cons_append, ← List.append_assoc] at hcreated
        obtain ⟨hothers, hnewest⟩ := List.append_inj' hcreated rfl
        obtain rfl := (List.cons.inj hnewest).1
        rw [List.forall_mem_append, List.forall_mem_singleton] at hlast
        exact Or.inr ⟨⟨earlier, others, hothers, hlast.1⟩, hlast.2.symm⟩
  · rintro (rfl | ⟨⟨earlier, later, rfl, hlast⟩, hne⟩)
    · exact ⟨created, [], rfl, List.forall_mem_nil _⟩
    · refine ⟨earlier, later ++ [newest], by simp, fun other hother => ?_⟩
      rcases List.mem_append.mp hother with hold | hnew
      · exact hlast other hold
      · rw [List.mem_singleton.mp hnew]
        exact hne.symm

end IndexModel

namespace Collection

/-! ## One entry -/

section Entry

variable {indexes : List IndexRecord} {r old : IndexRecord}

/-- A name that is not there yet goes to the end. -/
theorem names_recordIndex (indexes : List IndexRecord) (r : IndexRecord) :
    (recordIndex indexes r).map (·.name) =
      if r.name ∈ indexes.map (·.name) then indexes.map (·.name)
      else indexes.map (·.name) ++ [r.name] := by
  induction indexes with
  | nil => rfl
  | cons first rest ih =>
      rw [recordIndex]
      by_cases hname : first.name = r.name
      · simp [hname]
      · rw [if_neg hname, List.map_cons, ih, List.map_cons]
        simp only [List.mem_cons, Ne.symm hname, false_or]
        split <;> rfl

theorem nodup_recordIndex (h : (indexes.map (·.name)).Nodup) :
    ((recordIndex indexes r).map (·.name)).Nodup := by
  rw [names_recordIndex]
  split
  · exact h
  · rename_i hnew
    rw [← List.concat_eq_append]
    exact h.concat hnew

/-- The entry takes the place of the one of its name. -/
theorem mem_recordIndex (h : (indexes.map (·.name)).Nodup) :
    old ∈ recordIndex indexes r ↔ old = r ∨ old ∈ indexes ∧ old.name ≠ r.name := by
  induction indexes with
  | nil => simp [recordIndex]
  | cons first rest ih =>
      rw [List.map_cons, List.nodup_cons] at h
      rw [recordIndex]
      split
      · rename_i hname
        -- No other entry has the name of the first.
        have hrest : old ∈ rest → old.name ≠ r.name := by
          rintro hold heq
          exact h.1 (hname ▸ heq ▸ List.mem_map_of_mem hold)
        rw [List.mem_cons, List.mem_cons]
        refine or_congr_right ⟨fun hold => ⟨Or.inr hold, hrest hold⟩, ?_⟩
        rintro ⟨rfl | hold, hne⟩
        · exact absurd hname hne
        · exact hold
      · rename_i hname
        rw [List.mem_cons, List.mem_cons, ih h.2, or_left_comm, or_and_right]
        refine or_congr_right (or_congr_left ⟨fun heq => ⟨heq, heq ▸ hname⟩, And.left⟩)

end Entry

/-! ## All entries -/

theorem recordAll_append_singleton (indexes : List IndexRecord) (models : List IndexModel)
    (m : IndexModel) :
    recordAll indexes (models ++ [m]) = recordIndex (recordAll indexes models) m.record :=
  List.foldl_concat ..

/-- Without repetitions a further name counts if it is new. -/
theorem eraseDups_append_singleton (names : List String) (name : String) :
    (names ++ [name]).eraseDups =
      if name ∈ names.eraseDups then names.eraseDups else names.eraseDups ++ [name] := by
  by_cases h : name ∈ names <;> simp [List.eraseDups_append, List.removeAll, List.eraseDups_cons, h]

theorem names_recordAll (models : List IndexModel) :
    (recordAll [] models).map (·.name) = (models.map (·.name)).eraseDups := by
  induction models using List.reverseRecOn with
  | nil => rfl
  | append_singleton models m ih =>
      rw [recordAll_append_singleton, names_recordIndex, ih, List.map_append]
      exact (eraseDups_append_singleton _ m.name).symm

theorem nodup_recordAll (models : List IndexModel) :
    ((recordAll [] models).map (·.name)).Nodup := by
  induction models using List.reverseRecOn with
  | nil => exact List.nodup_nil
  | append_singleton models m ih =>
      rw [recordAll_append_singleton]
      exact nodup_recordIndex ih

/-- Under each name stands the index that was created last. -/
theorem mem_recordAll {models : List IndexModel} {r : IndexRecord} :
    r ∈ recordAll [] models ↔ ∃ m : IndexModel, m.LastIn models ∧ r = m.record := by
  induction models using List.reverseRecOn generalizing r with
  | nil => exact iff_of_false List.not_mem_nil fun ⟨m, hm, _⟩ => m.lastIn_nil hm
  | append_singleton models newest ih =>
      rw [recordAll_append_singleton, mem_recordIndex (nodup_recordAll models), ih]
      simp only [IndexModel.lastIn_append_singleton]
      constructor
      · rintro (rfl | ⟨⟨m, hm, rfl⟩, hne⟩)
        · exact ⟨newest, Or.inl rfl, rfl⟩
        · exact ⟨m, Or.inr ⟨hm, hne⟩, rfl⟩
      · rintro ⟨m, rfl | ⟨hm, hne⟩, rfl⟩
        · exact Or.inl rfl
        · exact Or.inr ⟨⟨m, hm, rfl⟩, hne⟩

/-! ## The list after a run -/

theorem indexes_afterCalls [Pattern.Engine] (calls : List Call) (c : Collection) :
    (c.afterCalls calls).indexes = recordAll c.indexes (calls.flatMap Call.models) := by
  induction calls generalizing c with
  | nil => rfl
  | cons call rest ih =>
      calc ((c.afterCall call).afterCalls rest).indexes
          = recordAll (recordAll c.indexes call.models) (rest.flatMap Call.models) := by
            rw [ih, (c.bookkeeping call).indexes]
        _ = recordAll c.indexes ((call :: rest).flatMap Call.models) :=
            List.foldl_append.symm

theorem afterCalls_createIndex [Pattern.Engine] (models : List IndexModel) (c : Collection) :
    c.afterCalls (models.map fun m => .act (.createIndex m)) =
      { c with indexes := recordAll c.indexes models } := by
  induction models generalizing c with
  | nil => rfl
  | cons m rest ih => exact ih (c.createIndex m).1

/-- After any run the indexes are a map by name, in the order in which the names
came up. Each entry is that of the index that was created last under its name,
and it is found by its keys and options until there is a later one. To create
several indexes is to create one after the other. No other call changes the
list. -/
theorem index_list [Pattern.Engine] (settings : CollectionSettings) (calls : List Call) :
    let c := (new settings).afterCalls calls
    let created := calls.flatMap Call.models
    (c.listIndexes.map (·.name)).Nodup ∧
      c.listIndexes.map (·.name) = (created.map (·.name)).eraseDups ∧
      (∀ info, info ∈ c.listIndexes ↔
        ∃ m : IndexModel, m.LastIn created ∧ info = m.info settings.fullName) ∧
      (∀ models, c.createIndexes models =
        (c.afterCalls (models.map fun m => .act (.createIndex m)), models.map (·.name))) ∧
      (∀ call : Call, call.models = [] → (c.afterCall call).listIndexes = c.listIndexes) ∧
      ∀ m : IndexModel, m.LastIn created →
        m.keys.toDocument.WellFormed → (Value.document m.keys.toDocument).NaNFree →
          c.hasIndex m.keys m.options = true := by
  intro c created
  have hindexes : c.indexes = recordAll [] created := indexes_afterCalls calls (new settings)
  have hsettings : c.settings = settings := settings_afterCalls calls (new settings)
  have hnames : c.listIndexes.map (·.name) = (recordAll [] created).map (·.name) := by
    rw [listIndexes, List.map_map, hindexes]
    rfl
  refine ⟨?_, ?_, fun info => ?_, fun models => ?_, fun call hcall => ?_,
    fun m hm hkeys hnan => ?_⟩
  · rw [hnames]
    exact nodup_recordAll created
  · rw [hnames]
    exact names_recordAll created
  · rw [listIndexes, List.mem_map, hindexes, hsettings]
    constructor
    · rintro ⟨r, hr, rfl⟩
      obtain ⟨m, hm, rfl⟩ := mem_recordAll.mp hr
      exact ⟨m, hm, rfl⟩
    · rintro ⟨m, hm, rfl⟩
      exact ⟨m.record, mem_recordAll.mpr ⟨m, hm, rfl⟩, rfl⟩
  · rw [createIndexes_eq, afterCalls_createIndex]
  · have hkept := c.bookkeeping call
    rw [listIndexes, listIndexes, hkept.indexes, hkept.settings, hcall]
    rfl
  · refine List.any_eq_true.mpr ⟨m.record, hindexes ▸ mem_recordAll.mpr ⟨m, hm, rfl⟩, ?_⟩
    rw [IndexRecord.satisfies, Bool.and_eq_true]
    exact ⟨Value.same_self hkeys hnan, beq_self_eq_true _⟩

/-- Of two indexes of one name that are created in one call, the later one is
listed and found, and a drop leaves it there. -/
theorem index_list_same_name :
    let index (direction : Int32) : IndexModel :=
      ⟨.fields [("foo", .int32 direction)], ⟨none, none⟩⟩
    let c := (new (.ofName "robots")).afterCalls [.act (.createIndexes [index 1, index (-1)])]
    c.listIndexes.map (·.name) = ["foo_1"] ∧
      (index (-1)).info "robots" ∈ (c.afterCall (.act .drop)).listIndexes ∧
      c.hasIndex (index (-1)).keys (index (-1)).options = true := by
  intro index c
  obtain ⟨-, hnames, hlisted, -, hkept, hfound⟩ :=
    index_list (.ofName "robots") [.act (.createIndexes [index 1, index (-1)])]
  have hlast : (index (-1)).LastIn [index 1, index (-1)] :=
    ⟨[index 1], [], rfl, List.forall_mem_nil _⟩
  have hkeys : (index (-1)).keys.toDocument.WellFormed := ⟨by decide, trivial, trivial⟩
  have hnan : (Value.document (index (-1)).keys.toDocument).NaNFree := by
    refine .intro (by rintro d ⟨⟩) (List.forall_mem_singleton.mpr ?_)
    exact .of_scalar (by rintro d ⟨⟩) rfl
  refine ⟨?_, ?_, hfound _ hlast hkeys hnan⟩
  · rw [hnames]
    decide
  · rw [hkept (.act .drop) rfl]
    exact (hlisted _).mpr ⟨_, hlast, rfl⟩

end Collection

end DocStore
