import DocStore.Proofs.InPlace

/-!
# What a call leaves behind when it fails

A call that fails leaves the collection as it was; a query has been logged all
the same (`Collection.perform_error`). Only an insertion of many documents goes
by other rules: it is a sequence of single insertions up to the first that
fails (`Collection.insertMany_eq_insertEach`), so that the documents before the
offending one stay in.

None of this depends on a failing step being undone: the calls in place, which
keep whatever they have written, do the same (`Action.inPlace_on`).
-/

namespace DocStore

namespace Collection

variable {c : Collection} {e : Error}

/-! ## Calls that fail -/

/-- The collection with the entry that the call makes in the query log. -/
def logged (c : Collection) : Action → Collection
  | .find f options => c.log f options
  | .findOne f options => c.log f options
  | .all => c.log .empty none
  | _ => c

theorem settle_error {α : Type} {step : Except Error (Collection × α)}
    (h : (c.settle step).2 = .error e) : (c.settle step).1 = c := by
  rcases c.settle_cases step with ⟨e', -, hsettle⟩ | ⟨after, answer, -, hsettle⟩
  · rw [hsettle]
  · rw [hsettle] at h
    cases h

theorem perform_error [Pattern.Engine] {a : Action} (ha : ∀ drafts, a ≠ .insertMany drafts)
    (h : (c.perform a).2 = .error e) : (c.perform a).1 = c.logged a := by
  cases a with
  | insertMany drafts => exact absurd rfl (ha drafts)
  | insertOne | update | findOneAndUpdate | delete =>
      exact settle_error (map_eq_error_iff.mp h)
  | find | findOne | all | count | hasDocument => rfl
  | drop | createIndex | createIndexes => cases h

/-! ## Insertion of many -/

/-- The collection after single insertions, one after the other up to the first
that fails, and the answers. -/
def insertEach (c : Collection) : List Draft → Collection × Except Error (List Value)
  | [] => (c, .ok [])
  | draft :: rest =>
      match c.insertOne draft with
      | (after, .error e) => (after, .error e)
      | (after, .ok id) =>
          ((after.insertEach rest).1, (after.insertEach rest).2.map (id :: ·))

theorem insertMany_eq_insertEach (c : Collection) (drafts : List Draft) :
    c.insertMany drafts = c.insertEach drafts := by
  induction drafts generalizing c with
  | nil => rfl
  | cons draft rest ih =>
      rw [insertMany, insertEach, insertOne]
      cases c.add draft with
      | error e => rfl
      | ok result =>
          dsimp only [settle]
          rw [ih result.1]

theorem insertMany_error {drafts : List Draft} (h : (c.insertMany drafts).2 = .error e) :
    ∃ before draft after, drafts = before ++ draft :: after ∧
      (c.insertMany drafts).1 = c.extended before ∧
      (c.extended before).insertOne draft = (c.extended before, .error e) := by
  induction drafts generalizing c with
  | nil => cases h
  | cons draft rest ih =>
      rw [insertMany] at h ⊢
      cases hadd : c.add draft with
      | error e' =>
          rw [hadd] at h
          obtain rfl := Except.error.inj h
          refine ⟨[], draft, rest, rfl, c.extended_nil.symm, ?_⟩
          rw [extended_nil, insertOne, hadd]
          rfl
      | ok result =>
          obtain ⟨next, id⟩ := result
          obtain ⟨rfl, -⟩ := add_extended hadd
          rw [hadd] at h
          obtain ⟨before, offending, after, rfl, hafter, hfails⟩ := ih (map_eq_error_iff.mp h)
          rw [← extended_cons] at hafter hfails
          exact ⟨draft :: before, offending, after, rfl, hafter, hfails⟩

/-! ## The contract of failure -/

/-- Made in place or not, a call that fails has changed nothing but the query
log, and an insertion of many documents is a sequence of single ones: on an
error the documents before the offending one stay in, and otherwise the answers
are the identifiers of the new documents in order. -/
theorem failed_calls [Pattern.Engine] (c : Collection) :
    (∀ a : Action, a.inPlace.on c = c.perform a) ∧
      (∀ (a : Action) (e : Error), (∀ drafts, a ≠ .insertMany drafts) →
        (c.perform a).2 = .error e → (c.perform a).1 = c.logged a) ∧
      ∀ drafts, c.insertMany drafts = c.insertEach drafts ∧
        (∀ e, (c.insertMany drafts).2 = .error e → ∃ before draft after,
          drafts = before ++ draft :: after ∧ (c.insertMany drafts).1 = c.extended before ∧
            (c.extended before).insertOne draft = (c.extended before, .error e)) ∧
        ∀ ids, (c.insertMany drafts).2 = .ok ids → (c.insertMany drafts).1 = c.extended drafts ∧
          drafts.map (fun draft => draft.complete.2.get? idField) = ids.map some :=
  ⟨fun a => a.inPlace_on c, fun _ _ => perform_error, fun drafts =>
    ⟨c.insertMany_eq_insertEach drafts, fun _ => insertMany_error, fun _ => insertMany_ok⟩⟩

/-- The same document once more is refused, and nothing has changed. -/
theorem failed_second_insertion :
    let draft : Draft := ⟨⟨List.replicate 12 0, rfl⟩, [(idField, .int32 1)]⟩
    let c := (new (.ofName "robots")).extended [draft]
    (c.perform (.insertOne draft)).1 = c :=
  (failed_calls _).2.1 _ _ (fun _ => Action.noConfusion) rfl

end Collection

end DocStore
