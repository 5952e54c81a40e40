import DocStore.Collection
import DocStore.Proofs.Updates

/-!
# What each operation does

One lemma for each operation of a collection that says all it can do: where it
fails, nothing has changed, and where it succeeds, which steps succeeded on the
way and what came out (`add_eq_ok_iff`, `update_cases`,
`findOneAndUpdate_cases`, `delete_cases`). The loops inside are described by
what they relate position by position: an update rewrites documents where they
stand (`updateMatching_forall₂`), a deletion leaves a part of the list in order
(`extract_sublist`). The counts in an answer are those of the documents
themselves (`length_insertMany`, `length_update`, `length_delete`).
-/

namespace DocStore

/-! ## Loops -/

/-- The document has the identifier, or one that counts as the same. -/
def Document.Identifies (d : Document) (id : Value) : Prop :=
  ∃ taken, d.get? idField = some taken ∧ sameIdentifier taken id = true

/-- The new document is the old one, or the old one updated because it
satisfies the query. -/
def Updated.Rewrites (q : Query) (u : Update) (old new : Document) : Prop :=
  new = old ∨ q.holds old = true ∧ ∃ differs, u.apply old = .ok (new, differs)

open Updated (Rewrites)

theorem forall₂_set {R : Document → Document → Prop} (hrefl : ∀ d, R d d)
    {documents : List Document} {i : Nat} {old new : Document}
    (hold : documents[i]? = some old) (hnew : R old new) :
    List.Forall₂ R documents (documents.set i new) := by
  induction documents generalizing i with
  | nil => cases hold
  | cons d rest ih =>
      cases i with
      | zero =>
          obtain rfl := Option.some.inj hold
          exact .cons hnew (List.forall₂_same.mpr fun d _ => hrefl d)
      | succ i => exact .cons (hrefl d) (ih hold)

theorem updateMatching_forall₂ {q : Query} {u : Update} {many : Bool} {documents : List Document}
    {after : Updated} (h : updateMatching q u many documents = .ok after) :
    List.Forall₂ (Rewrites q u) documents after.documents := by
  induction documents generalizing after with
  | nil => exact Except.ok.inj h ▸ .nil
  | cons d rest ih =>
      rw [updateMatching] at h
      split at h
      · rename_i hholds
        obtain ⟨⟨updated, differs⟩, hupdated, h⟩ := bind_eq_ok_iff.mp h
        have hhead : Rewrites q u d updated := Or.inr ⟨hholds, differs, hupdated⟩
        cases many with
        | true =>
            obtain ⟨tail, htail, h⟩ := bind_eq_ok_iff.mp h
            exact Except.ok.inj h ▸ .cons hhead (ih htail)
        | false =>
            exact Except.ok.inj h ▸ .cons hhead (List.forall₂_same.mpr fun _ _ => Or.inl rfl)
      · obtain ⟨tail, htail, h⟩ := bind_eq_ok_iff.mp h
        exact Except.ok.inj h ▸ .cons (Or.inl rfl) (ih htail)

theorem extract_sublist (q : Query) (many : Bool) (documents : List Document) :
    (extract q many documents).2.Sublist documents := by
  induction documents with
  | nil => exact .slnil
  | cons d rest ih =>
      rw [extract]
      split
      · split
        · exact ih.cons d
        · exact List.sublist_cons_self ..
      · exact ih.cons_cons d

/-- What is split off and what is left make up the documents. -/
theorem extract_perm (q : Query) (many : Bool) (documents : List Document) :
    ((extract q many documents).1 ++ (extract q many documents).2).Perm documents := by
  induction documents with
  | nil => exact .refl _
  | cons d rest ih =>
      rw [extract]
      split
      · split
        · exact ih.cons d
        · exact .refl _
      · exact List.perm_middle.trans (ih.cons d)

/-! ## Operations -/

theorem Draft.get?_complete (draft : Draft) :
    draft.complete.2.get? idField = some draft.complete.1 := by
  unfold complete
  split
  · assumption
  · exact (Document.get?_cons ..).trans (if_pos rfl)

/-- The identifier is a name without dots. -/
theorem Document.resolve?_idField (d : Document) : d.resolve? idField = d.get? idField := by
  have hsegments : Path.segments idField = [idField] := by decide
  unfold resolve?
  cases hid : d.get? idField with
  | some id => rfl
  | none => rw [hsegments, Value.descend?, Value.child?, hid, Option.bind_none]

namespace Collection

variable {c after : Collection}

/-- A step either goes through or leaves the collection as it is. -/
theorem settle_cases {α : Type} (c : Collection) (step : Except Error (Collection × α)) :
    (∃ e, step = .error e ∧ c.settle step = (c, .error e)) ∨
      ∃ after answer, step = .ok (after, answer) ∧ c.settle step = (after, .ok answer) := by
  cases step with
  | error e => exact Or.inl ⟨e, rfl, rfl⟩
  | ok result => exact Or.inr ⟨result.1, result.2, rfl, rfl⟩

theorem hasIdentifier_eq_false_iff {id : Value} :
    c.hasIdentifier id = false ↔ ∀ d ∈ c.documents, ¬ d.Identifies id := by
  rw [hasIdentifier, List.any_eq_false]
  refine forall_congr' fun d => forall_congr' fun _ => not_congr ?_
  rw [Option.any_eq_true, Document.Identifies]

theorem add_eq_ok_iff {draft : Draft} {id : Value} :
    c.add draft = .ok (after, id) ↔
      (∀ d ∈ c.documents, ¬ d.Identifies draft.complete.1) ∧
        after = { c with documents := c.documents ++ [draft.complete.2] } ∧
        id = draft.complete.1 := by
  rw [← hasIdentifier_eq_false_iff, add]
  cases hcomplete : draft.complete with
  | mk completed document =>
      cases hid : c.hasIdentifier completed <;> simp [hid, eq_comm]

theorem insertOne_cases (c : Collection) (draft : Draft) :
    (∃ e, c.add draft = .error e ∧ c.insertOne draft = (c, .error e)) ∨
      ∃ after id, c.add draft = .ok (after, id) ∧ c.insertOne draft = (after, .ok id) :=
  c.settle_cases _

/-- An insertion goes through just if the identifier is free. -/
theorem insertOne_of_free {draft : Draft}
    (hfree : ∀ d ∈ c.documents, ¬ d.Identifies draft.complete.1) :
    c.insertOne draft =
      ({ c with documents := c.documents ++ [draft.complete.2] }, .ok draft.complete.1) := by
  rw [insertOne, add_eq_ok_iff.mpr ⟨hfree, rfl, rfl⟩]
  rfl

theorem free_of_insertOne {draft : Draft} {answer : Value}
    (h : (c.insertOne draft).2 = .ok answer) :
    ∀ d ∈ c.documents, ¬ d.Identifies draft.complete.1 := by
  rcases c.insertOne_cases draft with ⟨e, -, hcall⟩ | ⟨after, id, hadd, -⟩
  · rw [hcall] at h
    cases h
  · exact (add_eq_ok_iff.mp hadd).1

/-- The collection with the documents of the drafts at the end. -/
def extended (c : Collection) (drafts : List Draft) : Collection :=
  { c with documents := c.documents ++ drafts.map (·.complete.2) }

theorem extended_nil (c : Collection) : c.extended [] = c := by
  rw [extended, List.map_nil, List.append_nil]

theorem extended_cons (c : Collection) (draft : Draft) (rest : List Draft) :
    c.extended (draft :: rest) = (c.extended [draft]).extended rest := by
  simp [extended]

/-- What goes through extends the collection by one document. -/
theorem add_extended {draft : Draft} {after : Collection} {id : Value}
    (h : c.add draft = .ok (after, id)) : after = c.extended [draft] ∧ id = draft.complete.1 := by
  obtain ⟨-, hafter, hid⟩ := add_eq_ok_iff.mp h
  exact ⟨hafter, hid⟩

/-- Many documents that go in stand at the end, each with the identifier that is answered for it. -/
theorem insertMany_ok {drafts : List Draft} {ids : List Value}
    (h : (c.insertMany drafts).2 = .ok ids) :
    (c.insertMany drafts).1 = c.extended drafts ∧
      drafts.map (fun draft => draft.complete.2.get? idField) = ids.map some := by
  induction drafts generalizing c ids with
  | nil =>
      obtain rfl := Except.ok.inj h
      exact ⟨c.extended_nil.symm, rfl⟩
  | cons draft rest ih =>
      rw [insertMany] at h ⊢
      cases hadd : c.add draft with
      | error e =>
          rw [hadd] at h
          cases h
      | ok result =>
          obtain ⟨next, id⟩ := result
          obtain ⟨rfl, rfl⟩ := add_extended hadd
          rw [hadd] at h
          obtain ⟨others, hothers, rfl⟩ := map_eq_ok_iff.mp h
          obtain ⟨hafter, hids⟩ := ih hothers
          rw [← extended_cons] at hafter
          refine ⟨hafter, ?_⟩
          rw [List.map_cons, List.map_cons, hids, draft.get?_complete]

theorem upsert_eq_ok_iff {f : Filter} {u : Update} {fresh : ObjectId} {id : Value} :
    c.upsert f u fresh = .ok (after, id) ↔
      ∃ d, u.upsertDocument f = .ok d ∧ c.add ⟨fresh, d⟩ = .ok (after, id) :=
  bind_eq_ok_iff

theorem update_cases [Pattern.Engine] (c : Collection) (many : Bool) (f : Filter) (spec : Document)
    (upsert : Bool) (fresh : ObjectId) :
    (∃ e, c.update many f spec upsert fresh = (c, .error e)) ∨
      ∃ u q updated, Update.parse spec = .ok u ∧ c.compile f = .ok q ∧
        updateMatching q u many c.documents = .ok updated ∧
        ((updated.matched = 0 ∧ upsert = true ∧ ∃ next id, c.upsert f u fresh = .ok (next, id) ∧
            c.update many f spec upsert fresh = (next, .ok ⟨0, 0, [id]⟩)) ∨
          ¬ (updated.matched = 0 ∧ upsert = true) ∧
            c.update many f spec upsert fresh = ({ c with documents := updated.documents },
              .ok ⟨updated.matched, updated.modified, []⟩)) := by
  unfold update
  rcases c.settle_cases _ with ⟨e, -, hsettle⟩ | ⟨after, answer, hstep, hsettle⟩
  · exact Or.inl ⟨e, hsettle⟩
  · right
    rw [hsettle]
    obtain ⟨u, hu, hstep⟩ := bind_eq_ok_iff.mp hstep
    obtain ⟨q, hq, hstep⟩ := bind_eq_ok_iff.mp hstep
    obtain ⟨updated, hupdated, hstep⟩ := bind_eq_ok_iff.mp hstep
    refine ⟨u, q, updated, hu, hq, hupdated, ?_⟩
    split at hstep
    · rename_i hnone
      obtain ⟨⟨next, id⟩, hnext, hstep⟩ := bind_eq_ok_iff.mp hstep
      obtain ⟨rfl, rfl⟩ := Prod.mk.injEq .. |>.mp (Except.ok.inj hstep)
      simp only [Bool.and_eq_true, decide_eq_true_eq] at hnone
      exact Or.inl ⟨hnone.1, hnone.2, next, id, hnext, rfl⟩
    · rename_i hsome
      obtain ⟨rfl, rfl⟩ := Prod.mk.injEq .. |>.mp (Except.ok.inj hstep)
      simp only [Bool.and_eq_true, decide_eq_true_eq] at hsome
      exact Or.inr ⟨hsome, rfl⟩

/-- The candidates are the stored documents that satisfy the query. -/
theorem mem_candidates_iff {q : Query} {sort : Option Document} {d : Document} {i : Nat} :
    (d, i) ∈ c.candidates q sort ↔ c.documents[i]? = some d ∧ q.holds d = true := by
  have hfound : (d, i) ∈ c.candidates q sort ↔
      (d, i) ∈ c.documents.zipIdx.filter fun candidate => q.holds candidate.1 := by
    unfold candidates
    cases sort with
    | none => exact Iff.rfl
    | some spec => exact List.mem_mergeSort
  rw [hfound, List.mem_filter, List.mem_zipIdx_iff_getElem?]

theorem candidates_eq_nil_iff {q : Query} {sort : Option Document} :
    c.candidates q sort = [] ↔ ∀ d ∈ c.documents, q.holds d = false := by
  rw [List.eq_nil_iff_forall_not_mem]
  constructor
  · intro hnone d hd
    obtain ⟨i, hi⟩ := List.mem_iff_getElem?.mp hd
    exact (Bool.not_eq_true _).mp fun hholds => hnone (d, i) (mem_candidates_iff.mpr ⟨hi, hholds⟩)
  · rintro hnone ⟨d, i⟩ hmem
    obtain ⟨hi, hholds⟩ := mem_candidates_iff.mp hmem
    exact Bool.false_ne_true ((hnone d (List.mem_of_getElem? hi)).symm.trans hholds)

theorem findOneAndUpdate_cases [Pattern.Engine] (c : Collection) (f : Filter) (spec : Document)
    (options : FindAndUpdateOptions) (fresh : ObjectId) :
    (∃ e, c.findOneAndUpdate f spec options fresh = (c, .error e)) ∨
      ∃ u q, Update.parse spec = .ok u ∧ c.compile f = .ok q ∧
        ((c.candidates q options.sort = [] ∧ options.upsert = true ∧
            ∃ next id, c.upsert f u fresh = .ok (next, id) ∧
              c.findOneAndUpdate f spec options fresh =
                (next, .ok (if options.returnAfter then next.documents.getLast? else none))) ∨
          (c.candidates q options.sort = [] ∧ options.upsert = false ∧
            c.findOneAndUpdate f spec options fresh = (c, .ok none)) ∨
          ∃ old i others updated differs, c.candidates q options.sort = (old, i) :: others ∧
            u.apply old = .ok (updated, differs) ∧
            c.findOneAndUpdate f spec options fresh =
              ({ c with documents := c.documents.set i updated },
                .ok (some (if options.returnAfter then updated else old)))) := by
  unfold findOneAndUpdate
  rcases c.settle_cases _ with ⟨e, -, hsettle⟩ | ⟨after, answer, hstep, hsettle⟩
  · exact Or.inl ⟨e, hsettle⟩
  · right
    rw [hsettle]
    obtain ⟨u, hu, hstep⟩ := bind_eq_ok_iff.mp hstep
    obtain ⟨q, hq, hstep⟩ := bind_eq_ok_iff.mp hstep
    refine ⟨u, q, hu, hq, ?_⟩
    split at hstep
    · rename_i hnone
      split at hstep
      · rename_i hupsert
        obtain ⟨⟨next, id⟩, hnext, hstep⟩ := bind_eq_ok_iff.mp hstep
        obtain ⟨rfl, rfl⟩ := Prod.mk.injEq .. |>.mp (Except.ok.inj hstep)
        exact Or.inl ⟨hnone, hupsert, next, id, hnext, rfl⟩
      · rename_i hupsert
        obtain ⟨rfl, rfl⟩ := Prod.mk.injEq .. |>.mp (Except.ok.inj hstep)
        exact Or.inr (Or.inl ⟨hnone, (Bool.not_eq_true _).mp hupsert, rfl⟩)
    · rename_i old i others hfirst
      obtain ⟨⟨updated, differs⟩, hupdated, hstep⟩ := bind_eq_ok_iff.mp hstep
      obtain ⟨rfl, rfl⟩ := Prod.mk.injEq .. |>.mp (Except.ok.inj hstep)
      exact Or.inr (Or.inr ⟨old, i, others, updated, differs, hfirst, hupdated, rfl⟩)

theorem delete_cases [Pattern.Engine] (c : Collection) (many : Bool) (f : Filter) :
    (∃ e, c.delete many f = (c, .error e)) ∨
      ∃ q, c.compile f = .ok q ∧
        c.delete many f = ({ c with documents := (extract q many c.documents).2 },
          .ok ⟨(extract q many c.documents).1.length,
            (extract q many c.documents).1.filterMap (·.get? idField)⟩) := by
  unfold delete
  rcases c.settle_cases _ with ⟨e, -, hsettle⟩ | ⟨after, answer, hstep, hsettle⟩
  · exact Or.inl ⟨e, hsettle⟩
  · obtain ⟨q, hq, hstep⟩ := bind_eq_ok_iff.mp hstep
    obtain ⟨rfl, rfl⟩ := Prod.mk.injEq .. |>.mp (Except.ok.inj hstep)
    exact Or.inr ⟨q, hq, hsettle⟩

/-! ## Counts

An answer counts the documents that came in or went out. -/

section Counts

theorem length_insertOne {draft : Draft} {r : InsertOneResult}
    (h : (c.insertOne draft).2 = .ok r) :
    (c.insertOne draft).1.documents.length = c.documents.length + r.insertedCount := by
  rw [insertOne_of_free (free_of_insertOne h)]
  exact List.length_append

theorem length_insertMany {drafts : List Draft} {r : InsertManyResult}
    (h : (c.insertMany drafts).2 = .ok r) :
    (c.insertMany drafts).1.documents.length = c.documents.length + r.insertedCount ∧
      r.insertedCount = drafts.length := by
  obtain ⟨hafter, hids⟩ := insertMany_ok h
  have hcount : drafts.length = r.length := by simpa using congrArg List.length hids
  rw [hafter, extended, List.length_append, List.length_map, hcount]
  exact ⟨rfl, rfl⟩

variable [Pattern.Engine] {many upsert : Bool} {f : Filter} {spec : Document} {fresh : ObjectId}

/-- An update that matches something inserts nothing. -/
theorem length_update {r : UpdateResult} (h : (c.update many f spec upsert fresh).2 = .ok r) :
    (c.update many f spec upsert fresh).1.documents.length =
        c.documents.length + r.upsertedCount ∧
      r.upserted = r.upsertedId?.toList ∧ (r.matched = 0 ∨ r.upsertedCount = 0) := by
  rcases c.update_cases many f spec upsert fresh with ⟨e, hcall⟩ |
    ⟨u, q, updated, -, -, hupdated, ⟨-, -, next, id, hnext, hcall⟩ | ⟨-, hcall⟩⟩
  · rw [hcall] at h
    cases h
  · rw [hcall] at h ⊢
    obtain rfl := Except.ok.inj h
    obtain ⟨d, -, hadd⟩ := upsert_eq_ok_iff.mp hnext
    obtain ⟨-, rfl, -⟩ := add_eq_ok_iff.mp hadd
    exact ⟨List.length_append, rfl, Or.inl rfl⟩
  · rw [hcall] at h ⊢
    obtain rfl := Except.ok.inj h
    exact ⟨(updateMatching_forall₂ hupdated).length_eq.symm, rfl, Or.inr rfl⟩

/-- All that a deletion takes out is counted, if every document has an identifier. -/
theorem length_delete {r : DeleteResult} (h : (c.delete many f).2 = .ok r) :
    (c.delete many f).1.documents.length + r.matched = c.documents.length ∧
      r.deletedCount ≤ r.matched ∧
      ((∀ d ∈ c.documents, (d.get? idField).isSome) → r.deletedCount = r.matched) := by
  rcases c.delete_cases many f with ⟨e, hcall⟩ | ⟨q, -, hcall⟩
  · rw [hcall] at h
    cases h
  · rw [hcall] at h ⊢
    obtain rfl := Except.ok.inj h
    have hperm := extract_perm q many c.documents
    have hlength := hperm.length_eq
    rw [List.length_append] at hlength
    refine ⟨(Nat.add_comm ..).trans hlength, List.length_filterMap_le .., fun hnamed => ?_⟩
    refine List.filterMap_length_eq_length.mpr fun d hd => ?_
    exact hnamed d (hperm.subset (List.mem_append_left _ hd))

end Counts

/-! ## Queries -/

section Queries

variable [Pattern.Engine] {f : Filter} {q : Query}

theorem count_of_compile (hq : c.compile f = .ok q) :
    c.count f = .ok (q.select c.documents).length := by
  rw [count, hq]
  rfl

theorem find_of_compile (hq : c.compile f = .ok q) :
    (c.find f none).2.map (·.documents) = .ok (q.select c.documents) := by
  rw [find, run, Option.getD_none, hq]
  rfl

theorem findOne_of_compile (hq : c.compile f = .ok q) :
    (c.findOne f none).2 = .ok (q.select c.documents).head? := by
  rw [findOne, run, Option.getD_none, hq]
  rfl

theorem count_eq_zero_iff :
    c.count f = .ok 0 ↔ ∃ q, c.compile f = .ok q ∧ ∀ d ∈ c.documents, q.holds d = false := by
  constructor
  · intro hcount
    obtain ⟨q, hq, hcount⟩ := bind_eq_ok_iff.mp hcount
    have hselect : q.select c.documents = [] := List.eq_nil_of_length_eq_zero (Except.ok.inj hcount)
    exact ⟨q, hq, by simpa [Query.select] using hselect⟩
  · rintro ⟨q, hq, hnone⟩
    have hselect : q.select c.documents = [] := by simpa [Query.select] using hnone
    rw [count_of_compile hq, hselect]
    rfl

end Queries

end Collection

/-! ## Indexes -/

/-- The entry that an index makes in the list. -/
def IndexModel.record (m : IndexModel) : IndexRecord := ⟨m.name, m.keys, m.options⟩

namespace Collection

/-- The list after the indexes have been created one after the other. -/
def recordAll (indexes : List IndexRecord) (models : List IndexModel) : List IndexRecord :=
  models.foldl (fun indexes m => recordIndex indexes m.record) indexes

theorem createIndexes_eq (models : List IndexModel) (c : Collection) :
    c.createIndexes models =
      ({ c with indexes := recordAll c.indexes models }, models.map (·.name)) := by
  induction models generalizing c with
  | nil => rfl
  | cons m rest ih =>
      have hrest := ih (c.createIndex m).1
      refine Prod.ext ?_ ?_
      · exact (congrArg Prod.fst hrest :)
      · exact (congrArg (fun after => m.name :: after.2) hrest :)

end Collection

end DocStore
