import DocStore.Proofs.Runs

/-!
# What calls write down

Besides its documents a collection keeps a log of the queries that were made
and a list of the indexes that were created. Most calls change nothing but the
documents (`Collection.OnlyDocuments`), even where they fail half way. What any
call writes down is said once (`Collection.bookkeeping`): a query puts its entry
at the end of the log, a created index goes into the list, and the settings
never change.
-/

namespace DocStore

/-! ## Entries -/

/-- The entry that the call makes in the log, if it is a query. -/
def Call.query? : Call → Option QueryRecord
  | .act (.find f options) => some ⟨f, options⟩
  | .act (.findOne f options) => some ⟨f, options⟩
  | .act .all => some ⟨.empty, none⟩
  | @Call.findAs _ _ f options => some ⟨f, options⟩
  | _ => none

/-- The indexes that the call creates, one after the other. -/
def Call.models : Call → List IndexModel
  | .act (.createIndex m) => [m]
  | .act (.createIndexes models) => models
  | _ => []

namespace Collection

/-! ## Calls that only change documents -/

/-- Nothing but the documents differs. -/
def OnlyDocuments (c after : Collection) : Prop :=
  ∃ documents, after = { c with documents := documents }

variable {c after : Collection}

theorem OnlyDocuments.refl (c : Collection) : c.OnlyDocuments c := ⟨c.documents, rfl⟩

theorem OnlyDocuments.trans {next : Collection} (h : c.OnlyDocuments next)
    (hnext : next.OnlyDocuments after) : c.OnlyDocuments after := by
  obtain ⟨documents, rfl⟩ := h
  obtain ⟨documents', rfl⟩ := hnext
  exact ⟨documents', rfl⟩

theorem onlyDocuments_of_add {draft : Draft} {id : Value} (h : c.add draft = .ok (after, id)) :
    c.OnlyDocuments after :=
  ⟨_, (add_eq_ok_iff.mp h).2.1⟩

theorem onlyDocuments_of_upsert {f : Filter} {u : Update} {fresh : ObjectId} {id : Value}
    (h : c.upsert f u fresh = .ok (after, id)) : c.OnlyDocuments after := by
  obtain ⟨d, -, hadd⟩ := upsert_eq_ok_iff.mp h
  exact onlyDocuments_of_add hadd

/-- A step that only changes documents when it goes through does so anyway. -/
theorem onlyDocuments_settle {α : Type} {step : Except Error (Collection × α)}
    (h : ∀ after answer, step = .ok (after, answer) → c.OnlyDocuments after) :
    c.OnlyDocuments (c.settle step).1 := by
  rcases c.settle_cases step with ⟨e, -, hsettle⟩ | ⟨after, answer, hstep, hsettle⟩
  · rw [hsettle]
    exact .refl c
  · rw [hsettle]
    exact h after answer hstep

theorem onlyDocuments_insertMany (drafts : List Draft) (c : Collection) :
    c.OnlyDocuments (c.insertMany drafts).1 := by
  induction drafts generalizing c with
  | nil => exact .refl c
  | cons draft rest ih =>
      rw [insertMany]
      cases hadd : c.add draft with
      | error e => exact .refl c
      | ok result => exact (onlyDocuments_of_add hadd).trans (ih result.1)

variable [Pattern.Engine]

theorem onlyDocuments_update (c : Collection) (many : Bool) (f : Filter) (spec : Document)
    (upsert : Bool) (fresh : ObjectId) :
    c.OnlyDocuments (c.update many f spec upsert fresh).1 := by
  rcases c.update_cases many f spec upsert fresh with ⟨e, h⟩ |
    ⟨u, q, updated, -, -, -, ⟨-, -, next, id, hnext, h⟩ | ⟨-, h⟩⟩
  · rw [h]
    exact .refl c
  · rw [h]
    exact onlyDocuments_of_upsert hnext
  · rw [h]
    exact ⟨_, rfl⟩

theorem onlyDocuments_findOneAndUpdate (c : Collection) (f : Filter) (spec : Document)
    (options : FindAndUpdateOptions) (fresh : ObjectId) :
    c.OnlyDocuments (c.findOneAndUpdate f spec options fresh).1 := by
  rcases c.findOneAndUpdate_cases f spec options fresh with ⟨e, h⟩ |
    ⟨u, q, -, -, ⟨-, -, next, id, hnext, h⟩ | ⟨-, -, h⟩ |
      ⟨old, i, others, updated, differs, -, -, h⟩⟩
  · rw [h]
    exact .refl c
  · rw [h]
    exact onlyDocuments_of_upsert hnext
  · rw [h]
    exact .refl c
  · rw [h]
    exact ⟨_, rfl⟩

theorem onlyDocuments_delete (c : Collection) (many : Bool) (f : Filter) :
    c.OnlyDocuments (c.delete many f).1 := by
  rcases c.delete_cases many f with ⟨e, h⟩ | ⟨q, -, h⟩
  · rw [h]
    exact .refl c
  · rw [h]
    exact ⟨_, rfl⟩

/-! ## Every call -/

/-- All that a call writes down is its entry in the log and the indexes that it
creates. -/
structure Bookkeeping (c : Collection) (call : Call) (after : Collection) : Prop where
  settings : after.settings = c.settings
  queries : after.queries = c.queries ++ call.query?.toList
  indexes : after.indexes = recordAll c.indexes call.models

omit [Pattern.Engine] in
theorem OnlyDocuments.bookkeeping {call : Call} (h : c.OnlyDocuments after)
    (hquery : call.query? = none) (hmodels : call.models = []) : c.Bookkeeping call after := by
  obtain ⟨documents, rfl⟩ := h
  refine ⟨rfl, ?_, ?_⟩
  · rw [hquery, Option.toList_none, List.append_nil]
  · rw [hmodels]
    rfl

theorem bookkeeping (c : Collection) (call : Call) : c.Bookkeeping call (c.afterCall call) := by
  cases call with
  | insertRecord fresh r =>
      refine (onlyDocuments_settle fun after answer hstep => ?_).bookkeeping rfl rfl
      obtain ⟨d, -, hadd⟩ := bind_eq_ok_iff.mp hstep
      exact onlyDocuments_of_add hadd
  | findAs => exact ⟨rfl, rfl, rfl⟩
  | act a =>
      cases a with
      | find | findOne | all => exact ⟨rfl, rfl, rfl⟩
      | insertOne draft =>
          exact (onlyDocuments_settle fun _ _ => onlyDocuments_of_add).bookkeeping rfl rfl
      | insertMany drafts => exact (onlyDocuments_insertMany drafts c).bookkeeping rfl rfl
      | update many f spec upsert fresh =>
          exact (c.onlyDocuments_update many f spec upsert fresh).bookkeeping rfl rfl
      | findOneAndUpdate f spec options fresh =>
          exact (c.onlyDocuments_findOneAndUpdate f spec options fresh).bookkeeping rfl rfl
      | delete many f => exact (c.onlyDocuments_delete many f).bookkeeping rfl rfl
      | count | hasDocument => exact (OnlyDocuments.refl c).bookkeeping rfl rfl
      | drop | createIndex => exact ⟨rfl, (List.append_nil _).symm, rfl⟩
      | createIndexes models =>
          rw [afterCall, perform, createIndexes_eq]
          exact ⟨rfl, (List.append_nil _).symm, rfl⟩

/-- The settings are the same after every run. -/
theorem settings_afterCalls (calls : List Call) (c : Collection) :
    (c.afterCalls calls).settings = c.settings := by
  induction calls generalizing c with
  | nil => rfl
  | cons call rest ih => exact (ih (c.afterCall call)).trans (c.bookkeeping call).settings

end Collection

end DocStore
