import DocStore.Proofs.FindAndUpdate

/-!
# What a call does, by position

Every call puts documents at the end, updates the documents in some positions
where they stand, or takes out the documents in some positions (`Effect`).
Which it does, and with which documents and positions, is told here without
making the call: from its arguments and the stored documents
(`Collection.effect`). A call that only reads has the effect of inserting
nothing, as has one that fails, except that an insertion of many keeps what it
has put in before it fails (`Collection.accepted`).

That the effect is what the call does is the statement `perform_effect`.
-/

namespace DocStore

/-! ## Effects -/

inductive Effect where
  | insert (documents : List Document)
  | rewrite (u : Update) (positions : List Nat)
  | remove (positions : List Nat)

/-- The document after an update. One to which the update cannot be applied
stays as it is. -/
def Update.result (u : Update) (d : Document) : Document :=
  match u.apply d with
  | .ok (new, _) => new
  | .error _ => d

/-- The items, with those in the given positions replaced. -/
def rewriteAt {α : Type} (f : α → α) (positions : List Nat) (items : List α) : List α :=
  items.mapIdx fun i x => if positions.contains i then f x else x

def Effect.on (documents : List Document) : Effect → List Document
  | insert more => documents ++ more
  | rewrite u positions => rewriteAt u.result positions documents
  | remove positions => keepOthers positions 0 documents

theorem Effect.on_nothing (documents : List Document) : (insert []).on documents = documents :=
  List.append_nil documents

section RewriteAt

variable {α β : Type} {f : α → α} {positions : List Nat} {items : List α}

theorem length_rewriteAt : (rewriteAt f positions items).length = items.length :=
  List.length_mapIdx

theorem getElem?_rewriteAt (i : Nat) :
    (rewriteAt f positions items)[i]? =
      items[i]?.map fun x => if positions.contains i then f x else x :=
  List.getElem?_mapIdx

/-- What the replacement leaves as it is can be read off before or after. -/
theorem rewriteAt_map_of_kept {g : α → β} (h : ∀ x, g (f x) = g x) :
    (rewriteAt f positions items).map g = items.map g := by
  refine List.ext_getElem? fun i => ?_
  rw [List.getElem?_map, getElem?_rewriteAt, List.getElem?_map, Option.map_map]
  refine congrArg (Option.map · items[i]?) (funext fun x => ?_)
  rw [Function.comp_apply]
  split
  · exact h x
  · rfl

theorem rewriteAt_map {g : α → β} {f' : β → β} (h : ∀ x, g (f x) = f' (g x)) :
    (rewriteAt f positions items).map g = rewriteAt f' positions (items.map g) := by
  refine List.ext_getElem? fun i => ?_
  rw [List.getElem?_map, getElem?_rewriteAt, getElem?_rewriteAt, List.getElem?_map,
    Option.map_map, Option.map_map]
  refine congrArg (Option.map · items[i]?) (funext fun x => ?_)
  rw [Function.comp_apply, Function.comp_apply, apply_ite g, h]

theorem set_eq_rewriteAt {i : Nat} {x : α} (h : items[i]? = some x) :
    items.set i (f x) = rewriteAt f [i] items := by
  refine List.ext_getElem? fun j => ?_
  rw [getElem?_rewriteAt, List.getElem?_set]
  by_cases hij : i = j
  · subst hij
    obtain ⟨hi, hx⟩ := List.getElem?_eq_some_iff.mp h
    simp [hi, hx]
  · simp [hij, Ne.symm hij]

end RewriteAt

/-! ## The effects of the calls -/

/-- The update can be applied to the documents in all of the positions. -/
def Update.appliesAt (u : Update) (documents : List Document) (positions : List Nat) : Bool :=
  positions.all fun i => documents[i]?.any fun d => (u.apply d).isOk

namespace Collection

/-- The documents that come in when the drafts are inserted one after the
other: those before the first whose identifier is taken. -/
def accepted (c : Collection) : List Draft → List Document
  | [] => []
  | draft :: rest =>
      if c.hasIdentifier draft.complete.1 then []
      else
        let document := draft.complete.2
        document :: accepted { c with documents := c.documents ++ [document] } rest

/-- The document that an upsert inserts, if it can be made and its identifier
is free. -/
def upserted (c : Collection) (f : Filter) (u : Update) (fresh : ObjectId) : List Document :=
  match u.upsertDocument f with
  | .ok d => c.accepted [⟨fresh, d⟩]
  | .error _ => []

/-- An update of the documents in some positions, which goes through for all of
them or for none, and inserts if there are none. -/
def updateEffect [Pattern.Engine] (c : Collection) (targets : Query → List Nat) (f : Filter)
    (spec : Document) (upsert : Bool) (fresh : ObjectId) : Effect :=
  match Update.parse spec, c.compile f with
  | .ok u, .ok q =>
      if (targets q).isEmpty then .insert (if upsert then c.upserted f u fresh else [])
      else if u.appliesAt c.documents (targets q) then .rewrite u (targets q)
      else .insert []
  | _, _ => .insert []

def effect [Pattern.Engine] (c : Collection) : Action → Effect
  | .insertOne draft => .insert (c.accepted [draft])
  | .insertMany drafts => .insert (c.accepted drafts)
  | .update many f spec upsert fresh =>
      c.updateEffect (·.positions many c.documents) f spec upsert fresh
  | .findOneAndUpdate f spec options fresh =>
      c.updateEffect (fun q => ((c.candidates q options.sort).take 1).map (·.2)) f spec
        options.upsert fresh
  | .delete many f =>
      match c.compile f with
      | .ok q => .remove (q.positions many c.documents)
      | .error _ => .insert []
  | .drop => .remove (List.range c.documents.length)
  | _ => .insert []

variable {c : Collection} {f : Filter} {spec : Document} {u : Update} {q : Query}

/-! ### Insertions -/

theorem add_eq (c : Collection) (draft : Draft) :
    c.add draft = if c.hasIdentifier draft.complete.1 then
        .error (.duplicateKey draft.complete.1.identifierText c.settings.name)
      else .ok ({ c with documents := c.documents ++ [draft.complete.2] }, draft.complete.1) :=
  rfl

theorem insertMany_documents (c : Collection) (drafts : List Draft) :
    (c.insertMany drafts).1.documents = c.documents ++ c.accepted drafts := by
  induction drafts generalizing c with
  | nil => exact (List.append_nil _).symm
  | cons draft rest ih =>
      rw [insertMany, accepted, add_eq]
      cases c.hasIdentifier draft.complete.1 with
      | true => exact (List.append_nil _).symm
      | false =>
          refine (ih _).trans ?_
          rw [List.append_assoc, List.singleton_append]
          rfl

theorem insertOne_documents (c : Collection) (draft : Draft) :
    (c.insertOne draft).1.documents = c.documents ++ c.accepted [draft] := by
  rw [insertOne, accepted, add_eq]
  cases c.hasIdentifier draft.complete.1 with
  | true => exact (List.append_nil _).symm
  | false => rfl

/-- The collection after a step does not depend on what is answered. -/
theorem settle_map {α β : Type} (c : Collection) (step : Except Error (Collection × α))
    (answer : Collection → α → β) :
    (c.settle (step.map fun (next, a) => (next, answer next a))).1 = (c.settle step).1 := by
  cases step <;> rfl

theorem settle_upsert_documents {α : Type} (c : Collection) (f : Filter) (u : Update)
    (upsert : Bool) (fresh : ObjectId) (answer : Collection → Value → α) (otherwise : α) :
    (c.settle (if upsert then
        (c.upsert f u fresh).map fun (next, id) => (next, answer next id)
      else .ok (c, otherwise))).1.documents =
      c.documents ++ if upsert then c.upserted f u fresh else [] := by
  cases upsert with
  | false => exact (List.append_nil _).symm
  | true =>
      simp only [if_true]
      rw [settle_map, Collection.upsert, upserted]
      cases u.upsertDocument f with
      | error e => exact (List.append_nil _).symm
      | ok d => exact c.insertOne_documents ⟨fresh, d⟩

/-! ### Updates -/

theorem exists_of_mem_positions {many : Bool} {documents : List Document} {i : Nat}
    (h : i ∈ q.positions many documents) :
    ∃ d, documents[i]? = some d ∧ q.holds d = true := by
  have hfound : i ∈ documents.findIdxs q.holds := by
    cases many with
    | true => exact h
    | false => exact List.mem_of_mem_take h
  obtain ⟨hi, hholds⟩ := List.mem_findIdxs_iff_exists_getElem_pos.mp hfound
  exact ⟨_, List.getElem?_eq_getElem hi, hholds⟩

/-- The update goes through just if it can be applied in all positions. -/
theorem appliesAt_eq_true_iff {many : Bool} {documents : List Document} :
    u.appliesAt documents (q.positions many documents) = true ↔
      ∃ after, updateMatching q u many documents = .ok after := by
  rw [updateMatching_isOk_iff, Update.appliesAt, List.all_eq_true]
  refine forall_congr' fun i => forall_congr' fun hi => ?_
  obtain ⟨d, hd, -⟩ := exists_of_mem_positions hi
  simp [hd, isOk_iff]

/-- An update that goes through in the given positions has rewritten them. -/
theorem eq_rewriteAt_of_pointwise {positions : List Nat} {old new : List Document}
    (h : Updated.Pointwise u positions old new) : new = rewriteAt u.result positions old := by
  refine List.ext_getElem? fun i => ?_
  rw [getElem?_rewriteAt]
  by_cases hi : i ∈ positions
  · obtain ⟨d, updated, differs, hold, happly, hnew⟩ := h.updated i hi
    simp [hold, hnew, hi, Update.result, happly]
  · rw [h.kept i hi]
    simp [hi]

section UpdateEffect

variable [Pattern.Engine] {targets : Query → List Nat} {upsert : Bool} {fresh : ObjectId}

theorem updateEffect_of_error (h : ¬ ∃ u q, Update.parse spec = .ok u ∧ c.compile f = .ok q) :
    c.updateEffect targets f spec upsert fresh = .insert [] := by
  unfold updateEffect
  split
  · rename_i u q hu hq
    exact absurd ⟨u, q, hu, hq⟩ h
  · rfl

theorem updateEffect_of_none (hu : Update.parse spec = .ok u) (hq : c.compile f = .ok q)
    (hnone : targets q = []) :
    c.updateEffect targets f spec upsert fresh =
      .insert (if upsert then c.upserted f u fresh else []) := by
  simp [updateEffect, hu, hq, hnone]

theorem updateEffect_of_some (hu : Update.parse spec = .ok u) (hq : c.compile f = .ok q)
    (hsome : targets q ≠ []) :
    c.updateEffect targets f spec upsert fresh =
      if u.appliesAt c.documents (targets q) then .rewrite u (targets q) else .insert [] := by
  simp [updateEffect, hu, hq, hsome]

end UpdateEffect

variable [Pattern.Engine]

theorem update_documents (c : Collection) (many : Bool) (f : Filter) (spec : Document)
    (upsert : Bool) (fresh : ObjectId) :
    (c.update many f spec upsert fresh).1.documents =
      (c.updateEffect (·.positions many c.documents) f spec upsert fresh).on c.documents := by
  by_cases hprepared : ∃ u q, Update.parse spec = .ok u ∧ c.compile f = .ok q
  · obtain ⟨u, q, hu, hq⟩ := hprepared
    by_cases hnone : q.positions many c.documents = []
    · rw [updateEffect_of_none hu hq hnone,
        update_of_no_match hu hq (Query.positions_eq_nil_iff.mp hnone)]
      exact c.settle_upsert_documents f u upsert fresh
        (fun _ id => UpdateResult.mk 0 0 [id]) ⟨0, 0, []⟩
    · rw [updateEffect_of_some hu hq hnone]
      rcases update_of_match hu hq hnone upsert fresh with ⟨e, hfails, hcall⟩ |
        ⟨after, hpass, hcall⟩
      · have happlies : ¬ u.appliesAt c.documents (q.positions many c.documents) = true := by
          rw [appliesAt_eq_true_iff, hfails]
          rintro ⟨after, h⟩
          cases h
        rw [hcall, if_neg happlies]
        exact (Effect.on_nothing _).symm
      · rw [hcall, if_pos (appliesAt_eq_true_iff.mpr ⟨after, hpass⟩)]
        exact eq_rewriteAt_of_pointwise (updateMatching_pointwise hpass).1
  · rw [updateEffect_of_error hprepared]
    rcases c.update_cases many f spec upsert fresh with ⟨e, h⟩ | ⟨u, q, _, hu, hq, -⟩
    · rw [h]
      exact (Effect.on_nothing _).symm
    · exact absurd ⟨u, q, hu, hq⟩ hprepared

theorem findOneAndUpdate_documents (c : Collection) (f : Filter) (spec : Document)
    (options : FindAndUpdateOptions) (fresh : ObjectId) :
    (c.findOneAndUpdate f spec options fresh).1.documents =
      (c.updateEffect (fun q => ((c.candidates q options.sort).take 1).map (·.2)) f spec
        options.upsert fresh).on c.documents := by
  by_cases hprepared : ∃ u q, Update.parse spec = .ok u ∧ c.compile f = .ok q
  · obtain ⟨u, q, hu, hq⟩ := hprepared
    cases hcandidates : c.candidates q options.sort with
    | nil =>
        have hnone : ((c.candidates q options.sort).take 1).map (·.2) = [] := by
          rw [hcandidates]
          rfl
        rw [updateEffect_of_none hu hq hnone,
          findOneAndUpdate_of_no_candidate hu hq hcandidates]
        exact c.settle_upsert_documents f u options.upsert fresh
          (fun next _ => if options.returnAfter then next.documents.getLast? else none) none
    | cons first others =>
        obtain ⟨old, i⟩ := first
        have hfirst : ((c.candidates q options.sort).take 1).map (·.2) = [i] := by
          rw [hcandidates]
          rfl
        have hold : c.documents[i]? = some old :=
          (mem_candidates_iff.mp (hcandidates ▸ List.mem_cons_self ..)).1
        rw [updateEffect_of_some hu hq (by rw [hfirst]; exact List.cons_ne_nil i []), hfirst,
          findOneAndUpdate_of_candidate hu hq hcandidates]
        cases happly : u.apply old with
        | error e =>
            have happlies : u.appliesAt c.documents [i] = false := by
              simp [Update.appliesAt, hold, happly, Except.isOk, Except.toBool]
            rw [happlies]
            exact (Effect.on_nothing _).symm
        | ok result =>
            have happlies : u.appliesAt c.documents [i] = true := by
              simp [Update.appliesAt, hold, happly, Except.isOk, Except.toBool]
            have hresult : u.result old = result.1 := by rw [Update.result, happly]
            rw [happlies]
            refine Eq.trans ?_ (set_eq_rewriteAt hold)
            rw [hresult]
            rfl
  · rw [updateEffect_of_error hprepared]
    rcases c.findOneAndUpdate_cases f spec options fresh with ⟨e, h⟩ | ⟨u, q, hu, hq, -⟩
    · rw [h]
      exact (Effect.on_nothing _).symm
    · exact absurd ⟨u, q, hu, hq⟩ hprepared

/-! ### Deletions -/

theorem delete_documents (c : Collection) (many : Bool) (f : Filter) :
    (c.delete many f).1.documents = (c.effect (.delete many f)).on c.documents := by
  rw [effect]
  cases hq : c.compile f with
  | error e =>
      rw [(fails_of_compile hq).2.2.2.2]
      exact (Effect.on_nothing _).symm
  | ok q =>
      rw [delete_of_compile hq]
      exact extract_eq_keepOthers q many c.documents

/-! ### Every call -/

/-- The effect of a call is what it does to the stored documents. -/
theorem perform_effect (c : Collection) (a : Action) :
    (c.perform a).1.documents = (c.effect a).on c.documents := by
  cases a with
  | insertOne draft => exact c.insertOne_documents draft
  | insertMany drafts => exact c.insertMany_documents drafts
  | update many f spec upsert fresh => exact c.update_documents many f spec upsert fresh
  | findOneAndUpdate f spec options fresh =>
      exact c.findOneAndUpdate_documents f spec options fresh
  | delete many f => exact c.delete_documents many f
  | drop =>
      refine (keepOthers_of_forall_mem fun i _ hi => ?_).symm
      rwa [List.mem_range, ← Nat.zero_add c.documents.length]
  | createIndexes models =>
      rw [perform, createIndexes_eq]
      exact (Effect.on_nothing _).symm
  | _ => exact (Effect.on_nothing _).symm

end Collection

end DocStore
