import DocStore.Proofs.Compilation
import DocStore.Proofs.Pointwise

/-!
# What a filter selects

Finding, counting, deleting and updating all go over the store in their own
way, and all of them mean the same documents: those of which the filter is true
(`Collection.selected`). The main statement is `Collection.selected_by_all`. It
speaks of the filter itself and not of the query that the filter is compiled
to, so that it also says which documents these are.

A deletion is described twice. `extract` splits the documents as it goes; the
store itself first collects the positions of the documents and then goes over
all of them with a running position, keeping those whose position has not been
collected (`keepOthers`). Both come to the same (`extract_eq_keepOthers`).
-/

namespace DocStore

/-! ## Deletion by position -/

/-- The items whose positions, counted from `first`, are not among the given
ones. -/
def keepOthers {α : Type} (positions : List Nat) (first : Nat) : List α → List α
  | [] => []
  | x :: rest =>
      if positions.contains first then keepOthers positions (first + 1) rest
      else x :: keepOthers positions (first + 1) rest

section KeepOthers

variable {α : Type} {positions : List Nat} {i first : Nat}

/-- A position that has been passed says nothing about the items to come. -/
theorem keepOthers_passed (h : i < first) (xs : List α) :
    keepOthers (i :: positions) first xs = keepOthers positions first xs := by
  induction xs generalizing first with
  | nil => rfl
  | cons x rest ih =>
      have hne : (first == i) = false := by simp; omega
      simp only [keepOthers, List.contains_cons, hne, Bool.false_or, ih (Nat.lt_succ_of_lt h)]

theorem keepOthers_shift (positions : List Nat) (first : Nat) (xs : List α) :
    keepOthers (positions.map (· + 1)) (first + 1) xs = keepOthers positions first xs := by
  induction xs generalizing first with
  | nil => rfl
  | cons x rest ih =>
      have hcontains : (positions.map (· + 1)).contains (first + 1) = positions.contains first := by
        rw [Bool.eq_iff_iff]
        simp
      simp only [keepOthers, hcontains, ih]

theorem keepOthers_hit (x : α) (rest : List α) :
    keepOthers (0 :: positions.map (· + 1)) 0 (x :: rest) = keepOthers positions 0 rest := by
  have hcontains : (0 :: positions.map (· + 1)).contains 0 = true := by simp
  rw [keepOthers, if_pos hcontains, keepOthers_passed Nat.one_pos, keepOthers_shift]

theorem keepOthers_miss (x : α) (rest : List α) :
    keepOthers (positions.map (· + 1)) 0 (x :: rest) = x :: keepOthers positions 0 rest := by
  have hcontains : ¬ (positions.map (· + 1)).contains 0 = true := by simp
  rw [keepOthers, if_neg hcontains, keepOthers_shift]

theorem keepOthers_none (first : Nat) (xs : List α) : keepOthers [] first xs = xs := by
  induction xs generalizing first with
  | nil => rfl
  | cons x rest ih => rw [keepOthers, ih]; rfl

theorem keepOthers_map {β : Type} (f : α → β) (positions : List Nat) (first : Nat) (xs : List α) :
    keepOthers positions first (xs.map f) = (keepOthers positions first xs).map f := by
  induction xs generalizing first with
  | nil => rfl
  | cons x rest ih =>
      rw [List.map_cons, keepOthers, keepOthers, ih]
      split <;> rfl

theorem keepOthers_sublist (positions : List Nat) (first : Nat) (xs : List α) :
    (keepOthers positions first xs).Sublist xs := by
  induction xs generalizing first with
  | nil => exact .slnil
  | cons x rest ih =>
      rw [keepOthers]
      split
      · exact (ih (first + 1)).cons x
      · exact (ih (first + 1)).cons_cons x

theorem keepOthers_of_forall_mem {items : List α}
    (h : ∀ i, first ≤ i → i < first + items.length → i ∈ positions) :
    keepOthers positions first items = [] := by
  induction items generalizing first with
  | nil => rfl
  | cons x rest ih =>
      have hfirst : positions.contains first = true := by
        simpa using h first (Nat.le_refl _) (by simp)
      rw [keepOthers, if_pos hfirst]
      refine ih fun i hlow hhigh => h i (Nat.le_of_succ_le hlow) ?_
      rw [List.length_cons]
      omega

end KeepOthers

section Extract

variable {q : Query} {many : Bool} {d : Document} {rest documents : List Document}

theorem extract_hit (h : q.holds d = true) :
    extract q many (d :: rest) =
      (d :: (if many then (extract q many rest).1 else []),
        if many then (extract q many rest).2 else rest) := by
  rw [extract, if_pos h]
  cases many <;> rfl

theorem extract_miss (h : q.holds d = false) :
    extract q many (d :: rest) = ((extract q many rest).1, d :: (extract q many rest).2) := by
  rw [extract, if_neg (Bool.eq_false_iff.mp h)]

/-- What a deletion leaves are the documents in the other positions. -/
theorem extract_eq_keepOthers (q : Query) (many : Bool) (documents : List Document) :
    (extract q many documents).2 = keepOthers (q.positions many documents) 0 documents := by
  induction documents with
  | nil => rfl
  | cons d rest ih =>
      cases hholds : q.holds d with
      | true =>
          rw [extract_hit hholds, Query.positions_hit hholds, keepOthers_hit]
          cases many with
          | true => exact ih
          | false => exact (keepOthers_none 0 rest).symm
      | false => rw [extract_miss hholds, Query.positions_miss hholds, keepOthers_miss, ih]

/-- A deletion of all documents that match splits the store in two. -/
theorem extract_all (q : Query) (documents : List Document) :
    extract q true documents =
      (q.select documents, documents.filter fun d => !q.holds d) := by
  induction documents with
  | nil => rfl
  | cons d rest ih =>
      cases hholds : q.holds d with
      | true => simp [extract_hit hholds, ih, Query.select, hholds]
      | false => simp [extract_miss hholds, ih, Query.select, hholds]

/-- A deletion of one takes the first that matches, if there is one. -/
theorem extract_first (q : Query) (documents : List Document) :
    extract q false documents =
      ((q.select documents).take 1, documents.eraseP q.holds) := by
  induction documents with
  | nil => rfl
  | cons d rest ih =>
      cases hholds : q.holds d with
      | true => simp [extract_hit hholds, Query.select, hholds]
      | false => simp [extract_miss hholds, ih, Query.select, hholds]

theorem Query.length_positions (q : Query) (documents : List Document) :
    (q.positions true documents).length = (q.select documents).length := by
  induction documents with
  | nil => rfl
  | cons d rest ih =>
      cases hholds : q.holds d with
      | true => simp [Query.positions_hit hholds, ih, Query.select, hholds]
      | false => simp [Query.positions_miss hholds, ih, Query.select, hholds]

end Extract

/-! ## The documents that a filter selects -/

namespace Collection

/-- The stored documents of which the filter is true, in their order. -/
def selected [Pattern.Engine] (c : Collection) (f : Filter) : List Document :=
  c.documents.filter (f.meaning c.settings.compiler)

section Selected

variable [Pattern.Engine] {c : Collection} {f : Filter} {q : Query}

theorem meaning_of_compile (hq : c.compile f = .ok q) :
    q.holds = f.meaning c.settings.compiler :=
  funext (holds_of_compileConditions f hq)

theorem select_of_compile (hq : c.compile f = .ok q) :
    q.select c.documents = c.selected f := by
  rw [Query.select, meaning_of_compile hq, selected]

theorem hasDocument_of_compile (hq : c.compile f = .ok q) :
    c.hasDocument f = .ok (decide (0 < (q.select c.documents).length)) := by
  rw [hasDocument, count_of_compile hq]
  rfl

theorem delete_of_compile (hq : c.compile f = .ok q) (many : Bool) :
    c.delete many f = ({ c with documents := (extract q many c.documents).2 },
      .ok ⟨(extract q many c.documents).1.length,
        (extract q many c.documents).1.filterMap (·.get? idField)⟩) := by
  rw [delete, hq]
  rfl

/-- A filter that does not compile fails every operation in the same way. -/
theorem fails_of_compile {e : Error} (he : c.compile f = .error e) :
    (c.find f none).2 = .error e ∧ (c.findOne f none).2 = .error e ∧ c.count f = .error e ∧
      c.hasDocument f = .error e ∧ ∀ many, c.delete many f = (c, .error e) := by
  have hrun : c.run f .default = .error e := by
    rw [run, he]
    rfl
  have hcount : c.count f = .error e := by
    rw [count, he]
    rfl
  refine ⟨hrun, ?_, hcount, ?_, ?_⟩
  · show (c.run f .default).map _ = _
    rw [hrun]
    rfl
  · rw [hasDocument, hcount]
    rfl
  · intro many
    rw [delete, he]
    rfl

theorem matched_of_updateMany (hq : c.compile f = .ok q) (hsome : q.select c.documents ≠ [])
    {spec : Document} {upsert : Bool} {fresh : ObjectId} {r : UpdateResult}
    (hr : (c.updateMany f spec upsert fresh).2 = .ok r) :
    r.matched = (q.select c.documents).length := by
  have hpositions : q.positions true c.documents ≠ [] := by
    rwa [ne_eq, ← List.length_eq_zero_iff, q.length_positions, List.length_eq_zero_iff]
  rcases c.update_cases true f spec upsert fresh with ⟨e, h⟩ |
    ⟨u, q', updated, hu, hq', hupdated, h⟩
  · rw [updateMany, h] at hr
    cases hr
  · obtain rfl := Except.ok.inj (hq.symm.trans hq')
    rcases update_of_match hu hq hpositions upsert fresh with ⟨e, -, hcall⟩ | ⟨after, hpass, hcall⟩
    · rw [updateMany, hcall] at hr
      cases hr
    · rw [updateMany, hcall] at hr
      obtain rfl := Except.ok.inj hr
      rw [(updateMatching_pointwise hpass).2, q.length_positions]

/-- Either the filter fails every operation with one error, or all of them mean
the documents that it selects: they are found, counted and updated, a deletion
of many leaves just the others, and a deletion of one takes the first. -/
theorem selected_by_all (c : Collection) (f : Filter) :
    (∃ e, (c.find f none).2 = .error e ∧ (c.findOne f none).2 = .error e ∧
        c.count f = .error e ∧ c.hasDocument f = .error e ∧
        c.deleteOne f = (c, .error e) ∧ c.deleteMany f = (c, .error e)) ∨
      let s := c.selected f
      let others := c.documents.filter fun d => !f.meaning c.settings.compiler d
      (c.find f none).2.map (·.documents) = .ok s ∧ (c.findOne f none).2 = .ok s.head? ∧
        c.count f = .ok s.length ∧ c.hasDocument f = .ok (!s.isEmpty) ∧
        c.deleteMany f =
          ({ c with documents := others }, .ok ⟨s.length, s.filterMap (·.get? idField)⟩) ∧
        (c.deleteMany f).1.count f = .ok 0 ∧
        c.deleteOne f =
          ({ c with documents := c.documents.eraseP (f.meaning c.settings.compiler) },
            .ok ⟨min 1 s.length, (s.take 1).filterMap (·.get? idField)⟩) ∧
        ∀ spec upsert fresh r, s ≠ [] → (c.updateMany f spec upsert fresh).2 = .ok r →
          r.matched = s.length := by
  cases hq : c.compile f with
  | error e =>
      obtain ⟨hfind, hfindOne, hcount, hhas, hdelete⟩ := fails_of_compile hq
      exact Or.inl ⟨e, hfind, hfindOne, hcount, hhas, hdelete false, hdelete true⟩
  | ok q =>
      right
      intro s others
      have hs : q.select c.documents = s := select_of_compile hq
      have hothers : (c.documents.filter fun d => !q.holds d) = others := by
        rw [meaning_of_compile hq]
      have hmany : c.deleteMany f =
          ({ c with documents := others }, .ok ⟨s.length, s.filterMap (·.get? idField)⟩) := by
        rw [deleteMany, delete_of_compile hq, extract_all, hs, hothers]
      have hleft : q.select others = [] := by
        rw [← hothers, Query.select, List.filter_filter, List.filter_eq_nil_iff]
        simp
      refine ⟨?_, ?_, ?_, ?_, hmany, ?_, ?_, ?_⟩
      · rw [find_of_compile hq, hs]
      · rw [findOne_of_compile hq, hs]
      · rw [count_of_compile hq, hs]
      · rw [hasDocument_of_compile hq, hs]
        cases s <;> simp
      · have hcompile : (c.deleteMany f).1.compile f = .ok q := by rw [hmany]; exact hq
        rw [count_of_compile hcompile, hmany, hleft]
        rfl
      · rw [deleteOne, delete_of_compile hq, extract_first, hs, meaning_of_compile hq,
          List.length_take]
      · intro spec upsert fresh r hsome hr
        rw [← hs] at hsome ⊢
        exact matched_of_updateMany hq hsome hr

end Selected

end Collection

end DocStore
