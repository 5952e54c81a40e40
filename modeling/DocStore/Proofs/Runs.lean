import DocStore.Proofs.Operations

/-!
# Calls, and what they do to the stored documents

An `Action` is one call of a collection with all its arguments, and `perform`
makes it. A run makes one call after the other; `Reachable` collects what runs
of allowed calls lead to, and its induction is packaged once
(`Reachable.invariant`).

Whatever a call does to the stored documents is a run of three changes
(`perform_changes`): a document whose identifier is free goes to the end,
documents are rewritten in place by an update that they satisfy, or documents
are taken out. An invariant of the store is shown for these three, and the
calls need not be looked at again.
-/

namespace DocStore

variable [Pattern.Engine]

/-! ## Calls -/

inductive Action where
  | insertOne (draft : Draft)
  | insertMany (drafts : List Draft)
  /-- Updates all documents that match, or the first. -/
  | update (many : Bool) (f : Filter) (spec : Document) (upsert : Bool) (fresh : ObjectId)
  | findOneAndUpdate (f : Filter) (spec : Document) (options : FindAndUpdateOptions)
      (fresh : ObjectId)
  /-- Deletes all documents that match, or the first. -/
  | delete (many : Bool) (f : Filter)
  | drop
  | find (f : Filter) (options : Option FindOptions)
  | findOne (f : Filter) (options : Option FindOptions)
  | all
  | count (f : Filter)
  | hasDocument (f : Filter)
  | createIndex (m : IndexModel)
  | createIndexes (models : List IndexModel)

inductive Answer where
  | identifier (id : Value)
  | identifiers (ids : List Value)
  | updated (r : UpdateResult)
  | deleted (r : DeleteResult)
  | cursor (c : Cursor)
  | document (d : Option Document)
  | documents (ds : List Document)
  | number (n : Nat)
  | decided (b : Bool)
  | names (names : List String)
  | done

namespace Collection

def perform (c : Collection) : Action → Collection × Except Error Answer
  | .insertOne draft => (c.insertOne draft).map id (·.map .identifier)
  | .insertMany drafts => (c.insertMany drafts).map id (·.map .identifiers)
  | .update many f spec upsert fresh =>
      (c.update many f spec upsert fresh).map id (·.map .updated)
  | .findOneAndUpdate f spec options fresh =>
      (c.findOneAndUpdate f spec options fresh).map id (·.map .document)
  | .delete many f => (c.delete many f).map id (·.map .deleted)
  | .drop => (c.drop, .ok .done)
  | .find f options => (c.find f options).map id (·.map .cursor)
  | .findOne f options => (c.findOne f options).map id (·.map .document)
  | .all => c.all.map id (·.map .documents)
  | .count f => (c, (c.count f).map .number)
  | .hasDocument f => (c, (c.hasDocument f).map .decided)
  | .createIndex m => ((c.createIndex m).1, .ok (.names [(c.createIndex m).2]))
  | .createIndexes models =>
      ((c.createIndexes models).1, .ok (.names (c.createIndexes models).2))

end Collection

/-- Any call that may change a collection: an action, or one of the two calls
that go by records. -/
inductive Call : Type 1 where
  | act (a : Action)
  | insertRecord {α : Type} [Record α] (fresh : ObjectId) (r : α)
  | findAs (α : Type) [Record α] (f : Filter) (options : Option FindOptions)

namespace Collection

def afterCall (c : Collection) : Call → Collection
  | .act a => (c.perform a).1
  | @Call.insertRecord _ _ fresh r => (c.insertRecord fresh r).1
  | @Call.findAs α _ f options => (c.findAs α f options).1

/-- The collection after one call after the other. -/
def afterCalls (c : Collection) (calls : List Call) : Collection := calls.foldl afterCall c

/-- What the calls of a run lead to, where each call has to be allowed in the
collection in which it is made. -/
inductive Reachable (allowed : Collection → Action → Prop) (start : Collection) :
    Collection → Prop where
  | start : Reachable allowed start start
  | call {c : Collection} {a : Action} (run : Reachable allowed start c) (h : allowed c a) :
      Reachable allowed start (c.perform a).1

theorem Reachable.invariant {allowed : Collection → Action → Prop} {start c : Collection}
    {motive : Collection → Prop} (hstart : motive start)
    (hcall : ∀ c a, motive c → allowed c a → motive (c.perform a).1)
    (run : Reachable allowed start c) : motive c := by
  induction run with
  | start => exact hstart
  | call _ hallowed ih => exact hcall _ _ ih hallowed

end Collection

/-! ## Arguments -/

/-- The documents among the arguments have distinct names. -/
def Action.WellFormed : Action → Prop
  | insertOne draft => draft.document.WellFormed
  | insertMany drafts => ∀ draft ∈ drafts, draft.document.WellFormed
  | update _ f spec _ _ => f.WellFormed ∧ spec.WellFormed
  | findOneAndUpdate f spec _ _ => f.WellFormed ∧ spec.WellFormed
  | _ => True

/-- The call is an update by `u`, and the document satisfies its filter. -/
def Action.Applies (a : Action) (c : Collection) (u : Update) (d : Document) : Prop :=
  match a with
  | update _ f spec _ _ | findOneAndUpdate f spec _ _ =>
      Update.parse spec = .ok u ∧ ∃ q, c.compile f = .ok q ∧ q.holds d = true
  | _ => False

/-- The draft is what an upsert makes of the filter and the update. -/
def Draft.MadeFrom (draft : Draft) (f : Filter) (spec : Document) : Prop :=
  ∃ u, Update.parse spec = .ok u ∧ u.upsertDocument f = .ok draft.document

/-- The draft is one that the call may insert: one that it is given, or the one
that it makes up for an upsert. -/
def Action.Inserts (a : Action) (draft : Draft) : Prop :=
  match a with
  | insertOne given => draft = given
  | insertMany drafts => draft ∈ drafts
  | update _ f spec upsert _ => upsert = true ∧ draft.MadeFrom f spec
  | findOneAndUpdate f spec options _ => options.upsert = true ∧ draft.MadeFrom f spec
  | _ => False

/-! ## Changes -/

/-- What a call can do to the stored documents at a time. -/
inductive Change (c : Collection) (a : Action) : List Document → List Document → Prop where
  | append {documents : List Document} {draft : Draft} (hdraft : a.Inserts draft)
      (hfree : ∀ d ∈ documents, ¬ d.Identifies draft.complete.1) :
      Change c a documents (documents ++ [draft.complete.2])
  | rewrite {documents : List Document}
      (h : List.Forall₂ (fun old new => new = old ∨
        ∃ u differs, a.Applies c u old ∧ u.apply old = .ok (new, differs)) c.documents documents) :
      Change c a c.documents documents
  | remove {documents : List Document} (h : documents.Sublist c.documents) :
      Change c a c.documents documents

abbrev Changes (c : Collection) (a : Action) : List Document → List Document → Prop :=
  Relation.ReflTransGen (Change c a)

namespace Collection

variable {c after : Collection} {a : Action}

theorem change_of_add {base : Collection} {draft : Draft} {id : Value} (hdraft : a.Inserts draft)
    (h : c.add draft = .ok (after, id)) : Change base a c.documents after.documents := by
  obtain ⟨hfree, rfl, -⟩ := add_eq_ok_iff.mp h
  exact .append hdraft hfree

theorem change_of_upsert {f : Filter} {spec : Document} {u : Update} {fresh : ObjectId} {id : Value}
    (hu : Update.parse spec = .ok u)
    (hdraft : ∀ draft : Draft, draft.MadeFrom f spec → a.Inserts draft)
    (h : c.upsert f u fresh = .ok (after, id)) : Change c a c.documents after.documents := by
  obtain ⟨d, hd, hadd⟩ := upsert_eq_ok_iff.mp h
  exact change_of_add (hdraft ⟨fresh, d⟩ ⟨u, hu, hd⟩) hadd

theorem changes_of_insertMany (base : Collection) {drafts : List Draft}
    (hdrafts : ∀ draft ∈ drafts, a.Inserts draft) (c : Collection) :
    Changes base a c.documents (c.insertMany drafts).1.documents := by
  induction drafts generalizing c with
  | nil => exact .refl
  | cons draft rest ih =>
      rw [List.forall_mem_cons] at hdrafts
      rw [insertMany]
      cases hadd : c.add draft with
      | error e => exact .refl
      | ok result =>
          exact (Relation.ReflTransGen.single (change_of_add hdrafts.1 hadd)).trans
            (ih hdrafts.2 result.1)

/-- A call appends, rewrites in place or takes out. -/
theorem perform_changes (c : Collection) (a : Action) :
    Changes c a c.documents (c.perform a).1.documents := by
  cases a with
  | insertOne draft =>
      rw [perform]
      rcases c.insertOne_cases draft with ⟨e, -, h⟩ | ⟨after, id, hadd, h⟩
      · rw [h]
        exact .refl
      · rw [h]
        exact .single (change_of_add (a := .insertOne draft) rfl hadd)
  | insertMany drafts =>
      exact changes_of_insertMany (a := .insertMany drafts) c (fun _ hdraft => hdraft) c
  | update many f spec upsert fresh =>
      rw [perform]
      rcases c.update_cases many f spec upsert fresh with ⟨e, h⟩ |
        ⟨u, q, updated, hu, hq, hupdated, ⟨-, hupsert, next, id, hnext, h⟩ | ⟨-, h⟩⟩
      · rw [h]
        exact .refl
      · rw [h]
        exact .single (change_of_upsert hu (fun _ hmade => ⟨hupsert, hmade⟩) hnext)
      · rw [h]
        refine .single (.rewrite ((updateMatching_forall₂ hupdated).imp fun old new hnew => ?_))
        rcases hnew with heq | ⟨hholds, differs, happly⟩
        · exact Or.inl heq
        · exact Or.inr ⟨u, differs, ⟨hu, q, hq, hholds⟩, happly⟩
  | findOneAndUpdate f spec options fresh =>
      rw [perform]
      rcases c.findOneAndUpdate_cases f spec options fresh with ⟨e, h⟩ |
        ⟨u, q, hu, hq, ⟨-, hupsert, next, id, hnext, h⟩ | ⟨-, -, h⟩ |
          ⟨old, i, others, updated, differs, hfirst, happly, h⟩⟩
      · rw [h]
        exact .refl
      · rw [h]
        exact .single (change_of_upsert hu (fun _ hmade => ⟨hupsert, hmade⟩) hnext)
      · rw [h]
        exact .refl
      · rw [h]
        have hmem : (old, i) ∈ c.candidates q options.sort := by simp [hfirst]
        obtain ⟨hold, hholds⟩ := mem_candidates_iff.mp hmem
        exact .single (.rewrite (forall₂_set (fun _ => Or.inl rfl) hold
          (Or.inr ⟨u, differs, ⟨hu, q, hq, hholds⟩, happly⟩)))
  | delete many f =>
      rw [perform]
      rcases c.delete_cases many f with ⟨e, h⟩ | ⟨q, -, h⟩
      · rw [h]
        exact .refl
      · rw [h]
        exact .single (.remove (extract_sublist q many c.documents))
  | drop => exact .single (.remove (List.nil_sublist _))
  | createIndexes models =>
      rw [perform, createIndexes_eq]
  | _ => exact .refl

end Collection

end DocStore
