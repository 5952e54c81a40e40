import DocStore.Proofs.Runs

/-!
# Calls that change the collection as they go

An operation of a collection is a step that either goes through or changes
nothing (`Collection.settle`). What is behind it is a store that is written in
place, statement after statement, and nothing is ever taken back: `InPlace` is
such a call, and what it has written before an error stays written.

So that an update of many documents does not stop half way, the changed copies
are first all made and only then written back to where they come from
(`stage`, `writeBack`). That comes to the same as the pass over the documents
that `updateMatching` makes (`updateMatching_eq_staged`), and with it every
call in place comes to the same as the step (`insert_on`, `update_on`,
`findOneAndUpdate_on`, `delete_on`, `query_on`).
-/

namespace DocStore

/-- A call that keeps what it has written when it fails. -/
abbrev InPlace := ExceptT Error (StateM Collection)

namespace InPlace

variable {α β : Type}

/-- The collection after the call, and the answer. -/
def on (call : InPlace α) (c : Collection) : Collection × Except Error α := (call.run.run c).swap

/-- A computation that does not touch the collection. -/
def compute (x : Except Error α) : InPlace α := ExceptT.mk (pure x)

@[simp] theorem on_compute (x : Except Error α) (c : Collection) : (compute x).on c = (c, x) := rfl

@[simp] theorem on_get (c : Collection) : (get : InPlace Collection).on c = (c, .ok c) := rfl

@[simp] theorem on_set (c next : Collection) :
    (set next : InPlace PUnit).on c = (next, .ok ⟨⟩) := rfl

theorem on_bind (call : InPlace α) (f : α → InPlace β) (c : Collection) :
    (call >>= f).on c =
      match (call.on c).2 with
      | .ok a => (f a).on (call.on c).1
      | .error e => ((call.on c).1, .error e) := by
  rw [on, ExceptT.run_bind, StateT.run_bind]
  simp only [on]
  cases hrun : call.run.run c with
  | mk answer after => cases answer <;> rfl

theorem on_map (f : α → β) (call : InPlace α) (c : Collection) :
    (f <$> call).on c = (call.on c).map id (·.map f) := by
  rw [map_eq_pure_bind, on_bind]
  cases hcall : call.on c with
  | mk after answer => cases answer <;> rfl

/-! ## The calls -/

def insert (draft : Draft) : InPlace Value := do
  let c ← get
  if c.hasIdentifier draft.complete.1 then
    throw (.duplicateKey draft.complete.1.identifierText c.settings.name)
  else
    set { c with documents := c.documents ++ [draft.complete.2] }
    return draft.complete.1

def insertMany : List Draft → InPlace (List Value)
  | [] => return []
  | draft :: rest => do
      let id ← insert draft
      let ids ← insertMany rest
      return id :: ids

/-- The documents that satisfy the query, all of them or the first, with their
positions counted from `first`. -/
def targets (q : Query) (many : Bool) (first : Nat) (documents : List Document) :
    List (Document × Nat) :=
  let found := (documents.zipIdx first).filter fun candidate => q.holds candidate.1
  if many then found else found.take 1

/-- The documents that the update changes, as they are to be, with their
positions. -/
def stage (u : Update) : List (Document × Nat) → Except Error (List (Document × Nat))
  | [] => .ok []
  | (d, i) :: rest => do
      let (updated, differs) ← u.apply d
      let staged ← stage u rest
      return if differs then (updated, i) :: staged else staged

/-- Puts copies at their positions, which are counted from `first`. -/
def writeBack (first : Nat) (staged : List (Document × Nat)) (documents : List Document) :
    List Document :=
  staged.foldl (fun documents copy => documents.set (copy.2 - first) copy.1) documents

def upsert (f : Filter) (u : Update) (fresh : ObjectId) : InPlace Value := do
  let d ← compute (u.upsertDocument f)
  insert ⟨fresh, d⟩

def update [Pattern.Engine] (many : Bool) (f : Filter) (spec : Document) (wanted : Bool)
    (fresh : ObjectId) :
    InPlace UpdateResult := do
  let u ← compute (Update.parse spec)
  let c ← get
  let q ← compute (c.compile f)
  let targets := targets q many 0 c.documents
  if targets.isEmpty then
    if wanted then
      let id ← upsert f u fresh
      return ⟨0, 0, [id]⟩
    else return ⟨0, 0, []⟩
  else
    let staged ← compute (stage u targets)
    set { c with documents := writeBack 0 staged c.documents }
    return ⟨targets.length, staged.length, []⟩

def findOneAndUpdate [Pattern.Engine] (f : Filter) (spec : Document)
    (options : FindAndUpdateOptions) (fresh : ObjectId) : InPlace (Option Document) := do
  let u ← compute (Update.parse spec)
  let c ← get
  let q ← compute (c.compile f)
  match c.candidates q options.sort with
  | [] =>
      if options.upsert then
        let _ ← upsert f u fresh
        let c ← get
        return if options.returnAfter then c.documents.getLast? else none
      else return none
  | (old, i) :: _ =>
      let (updated, _) ← compute (u.apply old)
      set { c with documents := c.documents.set i updated }
      return some (if options.returnAfter then updated else old)

def delete [Pattern.Engine] (many : Bool) (f : Filter) : InPlace DeleteResult := do
  let c ← get
  let q ← compute (c.compile f)
  let (out, left) := extract q many c.documents
  set { c with documents := left }
  return ⟨out.length, out.filterMap (·.get? idField)⟩

/-- The log is written before anything can fail. -/
def query [Pattern.Engine] (f : Filter) (options : Option FindOptions) : InPlace Cursor := do
  let c ← get
  set (c.log f options)
  compute (c.run f (options.getD .default))

/-! ## Insertion -/

theorem insert_on (draft : Draft) (c : Collection) : (insert draft).on c = c.insertOne draft := by
  have hsplit : draft.complete = (draft.complete.1, draft.complete.2) := rfl
  rw [insert, on_bind, on_get, Collection.insertOne, Collection.add, hsplit]
  dsimp only
  split <;> rfl

theorem insertMany_on (drafts : List Draft) (c : Collection) :
    (insertMany drafts).on c = c.insertMany drafts := by
  induction drafts generalizing c with
  | nil => rfl
  | cons draft rest ih =>
      rw [insertMany, on_bind, insert_on, Collection.insertMany, Collection.insertOne]
      cases c.add draft with
      | error e => rfl
      | ok result =>
          simp only [Collection.settle, on_bind, ih]
          cases (result.1.insertMany rest).2 <;> rfl

theorem upsert_on (f : Filter) (u : Update) (fresh : ObjectId) (c : Collection) :
    (upsert f u fresh).on c = c.settle (c.upsert f u fresh) := by
  rw [upsert, on_bind, on_compute, Collection.upsert]
  cases u.upsertDocument f with
  | error e => rfl
  | ok d => exact insert_on ⟨fresh, d⟩ c

/-! ## Staging -/

/-- What is staged has the positions of its targets. -/
theorem position_of_stage {u : Update} {chosen staged : List (Document × Nat)}
    (h : stage u chosen = .ok staged) : ∀ copy ∈ staged, ∃ target ∈ chosen, target.2 = copy.2 := by
  induction chosen generalizing staged with
  | nil =>
      obtain rfl := Except.ok.inj h
      exact List.forall_mem_nil _
  | cons target rest ih =>
      obtain ⟨d, i⟩ := target
      obtain ⟨⟨updated, differs⟩, -, h⟩ := bind_eq_ok_iff.mp h
      obtain ⟨others, hothers, h⟩ := bind_eq_ok_iff.mp h
      obtain rfl := Except.ok.inj h
      intro copy hcopy
      have hrest : copy ∈ others → ∃ target ∈ (d, i) :: rest, target.2 = copy.2 := by
        intro hmem
        obtain ⟨target, htarget, heq⟩ := ih hothers copy hmem
        exact ⟨target, List.mem_cons_of_mem _ htarget, heq⟩
      cases differs with
      | true =>
          rcases List.mem_cons.mp hcopy with rfl | hmem
          · exact ⟨(d, i), List.mem_cons_self .., rfl⟩
          · exact hrest hmem
      | false => exact hrest hcopy

theorem later_of_stage {u : Update} {chosen staged : List (Document × Nat)} {first : Nat}
    (h : stage u chosen = .ok staged) (hlater : ∀ target ∈ chosen, first < target.2) :
    ∀ copy ∈ staged, first < copy.2 := by
  intro copy hcopy
  obtain ⟨target, htarget, heq⟩ := position_of_stage h copy hcopy
  exact heq ▸ hlater target htarget

theorem le_of_mem_targets {q : Query} {many : Bool} {first : Nat} {documents : List Document}
    {target : Document × Nat} (h : target ∈ targets q many first documents) :
    first ≤ target.2 := by
  have hfound : target ∈ (documents.zipIdx first).filter fun candidate => q.holds candidate.1 := by
    unfold targets at h
    cases many with
    | true => exact h
    | false => exact List.mem_of_mem_take h
  exact List.le_snd_of_mem_zipIdx (List.mem_filter.mp hfound).1

/-- Copies that all come later leave the first document alone. -/
theorem writeBack_cons {first : Nat} {staged : List (Document × Nat)}
    (h : ∀ copy ∈ staged, first < copy.2) (d : Document) (rest : List Document) :
    writeBack first staged (d :: rest) = d :: writeBack (first + 1) staged rest := by
  induction staged generalizing rest with
  | nil => rfl
  | cons copy others ih =>
      rw [List.forall_mem_cons] at h
      have hposition : copy.2 - first = (copy.2 - (first + 1)) + 1 := by omega
      rw [writeBack, List.foldl_cons, hposition, List.set_cons_succ]
      exact ih h.2 _

/-- An update that changes nothing answers the document as it was. -/
theorem eq_of_apply {u : Update} {d changed : Document} (h : u.apply d = .ok (changed, false)) :
    changed = d := by
  cases u with
  | replacement r => cases h
  | operators ops =>
      obtain ⟨updated, -, h⟩ := bind_eq_ok_iff.mp h
      split at h
      · exact congrArg Prod.fst (Except.ok.inj h).symm
      · cases congrArg Prod.snd (Except.ok.inj h)

section Pass

variable {q : Query} {u : Update} {d : Document} {first : Nat} {rest : List Document}

theorem targets_cons (q : Query) (many : Bool) (first : Nat) (d : Document)
    (rest : List Document) :
    targets q many first (d :: rest) =
      if q.holds d then (d, first) :: (if many then targets q many (first + 1) rest else [])
      else targets q many (first + 1) rest := by
  by_cases hholds : q.holds d = true <;> cases many <;>
    simp [targets, List.zipIdx_cons, hholds]

/-- The changed document is written back in front of those after it. -/
theorem writeBack_head {updated : Document} {differs : Bool} {staged : List (Document × Nat)}
    (happly : u.apply d = .ok (updated, differs)) (hlater : ∀ copy ∈ staged, first < copy.2) :
    writeBack first (if differs then (updated, first) :: staged else staged) (d :: rest) =
      updated :: writeBack (first + 1) staged rest := by
  cases differs with
  | true =>
      rw [if_pos rfl, writeBack, List.foldl_cons, Nat.sub_self, List.set_cons_zero]
      exact writeBack_cons hlater updated rest
  | false => rw [if_neg Bool.false_ne_true, writeBack_cons hlater, eq_of_apply happly]

/-- A document that is updated, before others of which it is already known. -/
theorem staged_cons {chosen : List (Document × Nat)} {tail : Except Error Updated}
    (htail : tail = (stage u chosen).map fun staged =>
      ⟨writeBack (first + 1) staged rest, chosen.length, staged.length⟩)
    (hlater : ∀ target ∈ chosen, first < target.2) :
    (u.apply d >>= fun (updated, changed) => tail >>= fun after =>
      pure ⟨updated :: after.documents, after.matched + 1, after.modified + changed.toNat⟩) =
        (stage u ((d, first) :: chosen)).map fun staged =>
          (⟨writeBack first staged (d :: rest), chosen.length + 1, staged.length⟩ : Updated) := by
  rw [htail, stage]
  cases happly : u.apply d with
  | error e => rfl
  | ok result =>
      obtain ⟨updated, differs⟩ := result
      cases hstaged : stage u chosen with
      | error e => rfl
      | ok staged =>
          have hcopies := later_of_stage hstaged hlater
          have hcount : (if differs then (updated, first) :: staged else staged).length =
              staged.length + differs.toNat := by
            cases differs <;> rfl
          simp only [bind, Except.bind, Except.map, pure, Except.pure, hcount,
            writeBack_head happly hcopies]

end Pass

/-- One pass over the documents comes to the same as making all copies and
then writing them back. -/
theorem updateMatching_eq_staged (q : Query) (u : Update) (many : Bool) (first : Nat)
    (documents : List Document) :
    updateMatching q u many documents =
      (stage u (targets q many first documents)).map fun staged =>
        ⟨writeBack first staged documents, (targets q many first documents).length,
          staged.length⟩ := by
  induction documents generalizing first with
  | nil => cases many <;> rfl
  | cons d rest ih =>
      rw [updateMatching, targets_cons]
      split
      · cases many with
        | true =>
            simp only [if_true]
            exact staged_cons (ih (first + 1)) fun _ => le_of_mem_targets
        | false =>
            simp only [Bool.false_eq_true, if_false]
            exact staged_cons rfl (List.forall_mem_nil _)
      · rw [ih (first + 1)]
        cases hstaged : stage u (targets q many (first + 1) rest) with
        | error e => rfl
        | ok staged =>
            have hcopies : ∀ copy ∈ staged, first < copy.2 :=
              later_of_stage hstaged fun _ => le_of_mem_targets
            simp only [Except.map, writeBack_cons hcopies]
            rfl

/-! ## Updates -/

variable [Pattern.Engine]

theorem update_on (many : Bool) (f : Filter) (spec : Document) (wanted : Bool) (fresh : ObjectId)
    (c : Collection) :
    (update many f spec wanted fresh).on c = c.update many f spec wanted fresh := by
  rw [update, Collection.update]
  simp only [on_bind, on_compute, on_get]
  cases hu : Update.parse spec with
  | error e => rfl
  | ok u =>
      cases hq : c.compile f with
      | error e => rfl
      | ok q =>
          have hpass := updateMatching_eq_staged q u many 0 c.documents
          dsimp only
          rw [ok_bind, ok_bind, hpass]
          cases targets q many 0 c.documents with
          | nil =>
              cases wanted with
              | false => rfl
              | true =>
                  have hnone : (stage u []).map (fun staged =>
                      (⟨writeBack 0 staged c.documents, 0, staged.length⟩ : Updated)) =
                        .ok ⟨c.documents, 0, 0⟩ := rfl
                  simp only [List.isEmpty_nil, if_true, on_bind, upsert_on, List.length_nil, hnone,
                    ok_bind, decide_true, Bool.and_true]
                  cases c.upsert f u fresh with
                  | error e => rfl
                  | ok result => rfl
          | cons target rest =>
              simp only [List.isEmpty_cons, Bool.false_eq_true, if_false, on_bind, on_compute]
              cases stage u (target :: rest) with
              | error e => rfl
              | ok staged => rfl

theorem findOneAndUpdate_on (f : Filter) (spec : Document) (options : FindAndUpdateOptions)
    (fresh : ObjectId) (c : Collection) :
    (findOneAndUpdate f spec options fresh).on c = c.findOneAndUpdate f spec options fresh := by
  rw [findOneAndUpdate, Collection.findOneAndUpdate]
  simp only [on_bind, on_compute, on_get]
  cases hu : Update.parse spec with
  | error e => rfl
  | ok u =>
      cases hq : c.compile f with
      | error e => rfl
      | ok q =>
          dsimp only
          rw [ok_bind, ok_bind]
          cases c.candidates q options.sort with
          | nil =>
              cases options.upsert with
              | false => rfl
              | true =>
                  simp only [if_true, on_bind, upsert_on]
                  cases c.upsert f u fresh with
                  | error e => rfl
                  | ok result => rfl
          | cons candidate others =>
              obtain ⟨old, i⟩ := candidate
              simp only [on_bind, on_compute]
              cases u.apply old with
              | error e => rfl
              | ok result => rfl

/-! ## Deletion and queries -/

theorem delete_on (many : Bool) (f : Filter) (c : Collection) :
    (delete many f).on c = c.delete many f := by
  rw [delete, Collection.delete]
  simp only [on_bind, on_compute, on_get]
  cases hq : c.compile f with
  | error e => rfl
  | ok q => rfl

theorem query_on (f : Filter) (options : Option FindOptions) (c : Collection) :
    (query f options).on c = c.find f options := by
  rw [query, Collection.find]
  simp only [on_bind, on_get, on_set, on_compute]

end InPlace

/-! ## All calls -/

/-- The call, made in place. -/
def Action.inPlace [Pattern.Engine] : Action → InPlace Answer
  | insertOne draft => .identifier <$> InPlace.insert draft
  | insertMany drafts => .identifiers <$> InPlace.insertMany drafts
  | update many f spec upsert fresh => .updated <$> InPlace.update many f spec upsert fresh
  | findOneAndUpdate f spec options fresh =>
      .document <$> InPlace.findOneAndUpdate f spec options fresh
  | delete many f => .deleted <$> InPlace.delete many f
  | drop => do
      set (← get).drop
      return .done
  | find f options => .cursor <$> InPlace.query f options
  | findOne f options => (.document ·.documents.head?) <$> InPlace.query f options
  | all => (.documents ·.documents) <$> InPlace.query .empty none
  | count f => do
      let c ← get
      .number <$> InPlace.compute (c.count f)
  | hasDocument f => do
      let c ← get
      .decided <$> InPlace.compute (c.hasDocument f)
  | createIndex m => do
      let (next, name) := (← get).createIndex m
      set next
      return .names [name]
  | createIndexes models => do
      let (next, names) := (← get).createIndexes models
      set next
      return .names names

/-- Nothing that a call writes before it fails needs to be taken back. -/
theorem Action.inPlace_on [Pattern.Engine] (a : Action) (c : Collection) :
    a.inPlace.on c = c.perform a := by
  cases a with
  | insertOne draft => rw [inPlace, InPlace.on_map, InPlace.insert_on, Collection.perform]
  | insertMany drafts => rw [inPlace, InPlace.on_map, InPlace.insertMany_on, Collection.perform]
  | update many f spec upsert fresh =>
      rw [inPlace, InPlace.on_map, InPlace.update_on, Collection.perform]
  | findOneAndUpdate f spec options fresh =>
      rw [inPlace, InPlace.on_map, InPlace.findOneAndUpdate_on, Collection.perform]
  | delete many f => rw [inPlace, InPlace.on_map, InPlace.delete_on, Collection.perform]
  | drop => rfl
  | find f options => rw [inPlace, InPlace.on_map, InPlace.query_on, Collection.perform]
  | findOne f options =>
      rw [inPlace, InPlace.on_map, InPlace.query_on, Collection.perform, Collection.find,
        Collection.findOne]
      cases c.run f (options.getD .default) <;> rfl
  | all =>
      rw [inPlace, InPlace.on_map, InPlace.query_on, Collection.perform, Collection.find,
        Collection.all, Option.getD_none]
      cases c.run .empty .default <;> rfl
  | count f =>
      rw [inPlace, InPlace.on_bind, Collection.perform]
      exact InPlace.on_map ..
  | hasDocument f =>
      rw [inPlace, InPlace.on_bind, Collection.perform]
      exact InPlace.on_map ..
  | createIndex m => rfl
  | createIndexes models => rfl

end DocStore
