import DocStore.Proofs.Effects

/-!
# The ledger of a run

A run makes one call after the other, starting with no documents. Its ledger
numbers the documents that come in: `log` has each of them as it was when it
came in, and the position in the log is the document's tag. An entry is a
document in store with its tag, and `removed` has the tags of those that are
gone. The ledger follows the effects of the calls (`Ledger.follow`) and never
looks at the store.

It stays true to the store: the entries are the stored documents, in order
(`documents_follow`), whatever the calls are and whichever of them fail. What
keeps the entries in the order of the log is an invariant of the ledger alone
(`Ledger.Consistent`), with one lemma for each kind of effect: what comes in gets
a larger tag than all before, what is rewritten keeps its tag and its place, and
what is removed leaves the others in order. The main statement is
`Collection.stored_in_order_of_insertion`.
-/

namespace DocStore

/-! ## Taking out by position -/

/-- The items in the given positions, counted from `first`. -/
def pickOut {α : Type} (positions : List Nat) (first : Nat) : List α → List α
  | [] => []
  | x :: rest =>
      if positions.contains first then x :: pickOut positions (first + 1) rest
      else pickOut positions (first + 1) rest

/-- What is taken out and what is kept make up the whole. -/
theorem perm_pickOut_keepOthers {α : Type} (positions : List Nat) (first : Nat) (items : List α) :
    (pickOut positions first items ++ keepOthers positions first items).Perm items := by
  induction items generalizing first with
  | nil => exact .nil
  | cons x rest ih =>
      rw [pickOut, keepOthers]
      split
      · exact (ih (first + 1)).cons x
      · exact List.perm_middle.trans ((ih (first + 1)).cons x)

/-! ## Ledgers -/

/-- The document has come out of the other one by updates. -/
def Document.Descends (new old : Document) : Prop :=
  Relation.ReflTransGen (fun d d' => ∃ u differs, Update.apply u d = .ok (d', differs)) old new

theorem Document.Descends.result {d old : Document} (h : d.Descends old) (u : Update) :
    (u.result d).Descends old := by
  unfold Update.result
  split
  · rename_i new differs happly
    exact .tail h ⟨u, differs, happly⟩
  · exact h

/-- A document in store. -/
structure Entry where
  tag : Nat
  document : Document

def Entry.update (u : Update) (e : Entry) : Entry := { e with document := u.result e.document }

structure Ledger where
  /-- All documents that ever came in, as they were then. -/
  log : List Document
  entries : List Entry
  /-- The tags of the documents that were taken out. -/
  removed : List Nat

namespace Ledger

def empty : Ledger := ⟨[], [], []⟩

def tags (l : Ledger) : List Nat := l.entries.map (·.tag)

/-- The documents with tags that count on from the given one. -/
def numbered (start : Nat) (documents : List Document) : List Entry :=
  (documents.zipIdx start).map fun (d, tag) => ⟨tag, d⟩

def follow (l : Ledger) : Effect → Ledger
  | .insert more =>
      { l with log := l.log ++ more, entries := l.entries ++ numbered l.log.length more }
  | .rewrite u positions =>
      { l with entries := rewriteAt (Entry.update u) positions l.entries }
  | .remove positions =>
      { l with
        entries := keepOthers positions 0 l.entries
        removed := l.removed ++ (pickOut positions 0 l.entries).map (·.tag) }

/-- The tags go up, every tag was given to a document that is either in store or
gone, and the document in store is the one of that tag, after some updates. -/
structure Consistent (l : Ledger) : Prop where
  increasing : l.tags.Pairwise (· < ·)
  accounted : (l.removed ++ l.tags).Perm (List.range l.log.length)
  descended : ∀ e ∈ l.entries, ∃ d, l.log[e.tag]? = some d ∧ e.document.Descends d

variable {l : Ledger}

/-! ### One effect -/

/-- The entries are the documents that the effect leaves. -/
theorem documents_follow (l : Ledger) (e : Effect) :
    (l.follow e).entries.map (·.document) = e.on (l.entries.map (·.document)) := by
  cases e with
  | insert more =>
      have hmore : (numbered l.log.length more).map (·.document) = more := by
        rw [numbered, List.map_map]
        exact List.zipIdx_map_fst ..
      rw [follow, List.map_append, hmore, Effect.on]
  | rewrite u positions => exact rewriteAt_map fun _ => rfl
  | remove positions => exact (keepOthers_map ..).symm

theorem tags_numbered (start : Nat) (documents : List Document) :
    (numbered start documents).map (·.tag) = List.range' start documents.length := by
  rw [numbered, List.map_map]
  exact List.zipIdx_map_snd ..

theorem Consistent.empty : empty.Consistent := ⟨.nil, .nil, List.forall_mem_nil _⟩

theorem Consistent.insert (h : l.Consistent) (more : List Document) :
    (l.follow (.insert more)).Consistent := by
  have htags : (l.follow (.insert more)).tags =
      l.tags ++ List.range' l.log.length more.length := by
    rw [tags, follow, List.map_append, tags_numbered, tags]
  refine ⟨?_, ?_, ?_⟩
  -- The new tags count on from the length of the log, which no tag has reached.
  · rw [htags, List.pairwise_append]
    refine ⟨h.increasing, List.pairwise_lt_range', fun tag htag new hnew => ?_⟩
    have hold : tag ∈ List.range l.log.length :=
      h.accounted.subset (List.mem_append_right _ htag)
    exact Nat.lt_of_lt_of_le (List.mem_range.mp hold) (List.mem_range'_1.mp hnew).1
  · have hrange : List.range (l.log ++ more).length =
        List.range l.log.length ++ List.range' l.log.length more.length := by
      rw [List.length_append, List.range_eq_range', List.range_eq_range', ← List.range'_append_1,
        Nat.zero_add]
    rw [htags, follow, hrange, ← List.append_assoc]
    exact h.accounted.append_right _
  · intro e he
    rcases List.mem_append.mp he with hold | hnew
    · obtain ⟨d, hd, hdescends⟩ := h.descended e hold
      have htag : e.tag < l.log.length := (List.getElem?_eq_some_iff.mp hd).1
      exact ⟨d, (List.getElem?_append_left htag).trans hd, hdescends⟩
    · obtain ⟨⟨d, tag⟩, hmem, rfl⟩ := List.mem_map.mp hnew
      obtain ⟨hstart, hd⟩ := List.mk_mem_zipIdx_iff_le_and_getElem?_sub.mp hmem
      exact ⟨d, (List.getElem?_append_right hstart).trans hd, .refl⟩

theorem Consistent.rewrite (h : l.Consistent) (u : Update) (positions : List Nat) :
    (l.follow (.rewrite u positions)).Consistent := by
  have htags : (l.follow (.rewrite u positions)).tags = l.tags :=
    rewriteAt_map_of_kept fun _ => rfl
  refine ⟨htags ▸ h.increasing, htags ▸ h.accounted, fun e he => ?_⟩
  obtain ⟨i, hi, rfl⟩ := List.mem_mapIdx.mp he
  obtain ⟨d, hd, hdescends⟩ := h.descended l.entries[i] (List.getElem_mem hi)
  split
  · exact ⟨d, hd, hdescends.result u⟩
  · exact ⟨d, hd, hdescends⟩

theorem Consistent.remove (h : l.Consistent) (positions : List Nat) :
    (l.follow (.remove positions)).Consistent := by
  have hkept := keepOthers_sublist positions 0 l.entries
  refine ⟨h.increasing.sublist (hkept.map _), ?_, fun e he => h.descended e (hkept.subset he)⟩
  have hperm := (perm_pickOut_keepOthers positions 0 l.entries).map (·.tag)
  rw [List.map_append] at hperm
  rw [follow, tags, List.append_assoc]
  exact (hperm.append_left l.removed).trans h.accounted

theorem Consistent.follow (h : l.Consistent) (e : Effect) : (l.follow e).Consistent := by
  cases e with
  | insert more => exact h.insert more
  | rewrite u positions => exact h.rewrite u positions
  | remove positions => exact h.remove positions

/-! ### What the invariant says -/

/-- In store are the tags that are not gone, in order. -/
theorem Consistent.tags_eq (h : l.Consistent) :
    l.tags = (List.range l.log.length).filter fun tag => !l.removed.contains tag := by
  have hnodup : (l.removed ++ l.tags).Nodup := h.accounted.nodup_iff.mpr List.nodup_range
  have hgone : (l.removed.filter fun tag => !l.removed.contains tag) = [] := by
    simp [List.filter_eq_nil_iff]
  have hstored : (l.tags.filter fun tag => !l.removed.contains tag) = l.tags := by
    rw [List.filter_eq_self]
    intro tag htag
    simpa using fun hremoved => (List.nodup_append.mp hnodup).2.2 tag hremoved tag htag rfl
  have hperm := h.accounted.filter fun tag => !l.removed.contains tag
  rw [List.filter_append, hgone, hstored, List.nil_append] at hperm
  -- Both lists go up, so having the same members they are the same.
  refine hperm.eq_of_pairwise (fun a b _ _ hab hba => absurd hab (Nat.lt_asymm hba)) h.increasing ?_
  exact List.pairwise_lt_range.filter _

theorem Consistent.length_eq (h : l.Consistent) :
    l.entries.length + l.removed.length = l.log.length := by
  have hlength := h.accounted.length_eq
  rw [List.length_append, tags, List.length_map, List.length_range] at hlength
  rw [Nat.add_comm, hlength]

end Ledger

/-! ## Runs -/

/-- The collection after one call after the other. -/
def Collection.performAll [Pattern.Engine] (c : Collection) : List Action → Collection
  | [] => c
  | a :: rest => (c.perform a).1.performAll rest

namespace Ledger

variable [Pattern.Engine] {l : Ledger}

def followAll (l : Ledger) (c : Collection) : List Action → Ledger
  | [] => l
  | a :: rest => (l.follow (c.effect a)).followAll (c.perform a).1 rest

/-- The ledger of the calls, made to an empty collection. -/
def ofCalls (settings : CollectionSettings) (calls : List Action) : Ledger :=
  empty.followAll (.new settings) calls

theorem followAll_concat (l : Ledger) (c : Collection) (calls : List Action) (a : Action) :
    l.followAll c (calls ++ [a]) =
      (l.followAll c calls).follow ((c.performAll calls).effect a) := by
  induction calls generalizing l c with
  | nil => rfl
  | cons first rest ih => exact ih ..

/-- Whatever is called, the entries stay the stored documents. -/
theorem documents_followAll {c : Collection} (h : l.entries.map (·.document) = c.documents)
    (calls : List Action) :
    (l.followAll c calls).entries.map (·.document) = (c.performAll calls).documents := by
  induction calls generalizing l c with
  | nil => exact h
  | cons a rest ih =>
      refine ih ?_
      rw [documents_follow, h, Collection.perform_effect]

theorem Consistent.followAll (h : l.Consistent) (c : Collection) (calls : List Action) :
    (l.followAll c calls).Consistent := by
  induction calls generalizing l c with
  | nil => exact h
  | cons a rest ih => exact ih (h.follow (c.effect a)) _

end Ledger

/-! ## One more call -/

/-- The same document in the same place, as it was or updated. -/
def Entry.Kept (old new : Entry) : Prop :=
  new.tag = old.tag ∧
    (new.document = old.document ∨
      ∃ u differs, Update.apply u old.document = .ok (new.document, differs))

def Action.removes : Action → Bool
  | delete _ _ => true
  | drop => true
  | _ => false

theorem Entry.Kept.refl (e : Entry) : e.Kept e := ⟨rfl, Or.inl rfl⟩

theorem Entry.Kept.update (u : Update) (e : Entry) : e.Kept (e.update u) := by
  refine ⟨rfl, ?_⟩
  unfold Entry.update Update.result
  split
  · rename_i new differs happly
    exact Or.inr ⟨u, differs, happly⟩
  · exact Or.inl rfl

theorem forall₂_kept_rewriteAt (u : Update) (positions : List Nat) (entries : List Entry) :
    List.Forall₂ Entry.Kept entries
      (rewriteAt (Entry.update u) positions entries) := by
  rw [List.forall₂_iff_get]
  refine ⟨length_rewriteAt.symm, fun i hi _ => ?_⟩
  simp only [rewriteAt, List.get_eq_getElem, List.getElem_mapIdx]
  split
  · exact .update ..
  · exact .refl _

namespace Collection

variable [Pattern.Engine]

theorem updateEffect_cases (c : Collection) (targets : Query → List Nat) (f : Filter)
    (spec : Document) (upsert : Bool) (fresh : ObjectId) :
    (∃ more, c.updateEffect targets f spec upsert fresh = .insert more) ∨
      ∃ u positions, c.updateEffect targets f spec upsert fresh = .rewrite u positions := by
  unfold updateEffect
  split
  · split
    · exact Or.inl ⟨_, rfl⟩
    · split
      · exact Or.inr ⟨_, _, rfl⟩
      · exact Or.inl ⟨_, rfl⟩
  · exact Or.inl ⟨_, rfl⟩

theorem effect_of_removes {a : Action} (h : a.removes = true) (c : Collection) :
    c.effect a = .insert [] ∨ ∃ positions, c.effect a = .remove positions := by
  cases a with
  | delete many f =>
      rw [effect]
      split
      · exact Or.inr ⟨_, rfl⟩
      · exact Or.inl rfl
  | drop => exact Or.inr ⟨_, rfl⟩
  | _ => cases h

theorem effect_of_not_removes {a : Action} (h : a.removes = false) (c : Collection) :
    (∃ more, c.effect a = .insert more) ∨ ∃ u positions, c.effect a = .rewrite u positions := by
  cases a with
  | update | findOneAndUpdate => exact c.updateEffect_cases ..
  | delete | drop => cases h
  | _ => exact Or.inl ⟨_, rfl⟩

end Collection

/-- A deletion takes entries out and leaves the others as they are. Any other
call leaves all entries where they are, and what it adds comes after them. -/
theorem Ledger.follow_effect [Pattern.Engine] (l : Ledger) (c : Collection) (a : Action) :
    let next := l.follow (c.effect a)
    if a.removes then next.log = l.log ∧ next.entries.Sublist l.entries
    else next.removed = l.removed ∧
      List.Forall₂ Entry.Kept l.entries (next.entries.take l.entries.length) := by
  intro next
  split
  · rename_i hremoves
    rcases Collection.effect_of_removes hremoves c with heffect | ⟨positions, heffect⟩
    · simp [next, heffect, follow, numbered]
    · simp only [next, heffect, follow]
      exact ⟨trivial, keepOthers_sublist ..⟩
  · rename_i hkeeps
    rcases Collection.effect_of_not_removes (Bool.eq_false_iff.mpr hkeeps) c with
      ⟨more, heffect⟩ | ⟨u, positions, heffect⟩
    · simp only [next, heffect, follow, List.take_left']
      exact ⟨trivial, List.forall₂_same.mpr fun e _ => .refl e⟩
    · simp only [next, heffect, follow]
      rw [← length_rewriteAt, List.take_length]
      exact ⟨trivial, forall₂_kept_rewriteAt ..⟩

/-! ## Finding without a sort -/

section Paging

variable {α β : Type} (f : α → β) (skip : Option UInt64) (limit : Option Int64) (items : List α)

theorem limitTo_map : limitTo limit (items.map f) = (limitTo limit items).map f := by
  unfold limitTo
  split
  · rfl
  · split
    · rfl
    · exact List.map_take.symm

theorem skipFirst_map : skipFirst skip (items.map f) = (skipFirst skip items).map f := by
  unfold skipFirst
  split
  · rfl
  · exact List.map_drop.symm

theorem limitTo_sublist : (limitTo limit items).Sublist items := by
  unfold limitTo
  split
  · exact .refl _
  · split
    · exact .refl _
    · exact List.take_sublist ..

theorem skipFirst_sublist : (skipFirst skip items).Sublist items := by
  unfold skipFirst
  split
  · exact .refl _
  · exact List.drop_sublist ..

end Paging

namespace Ledger

variable {l : Ledger} {c : Collection}

/-- The entries that a query finds under options without a sort. -/
def shown (l : Ledger) (q : Query) (options : FindOptions) : List Entry :=
  limitTo options.limit (skipFirst options.skip (l.entries.filter fun e => q.holds e.document))

theorem shown_sublist (l : Ledger) (q : Query) (options : FindOptions) :
    (l.shown q options).Sublist l.entries :=
  (limitTo_sublist ..).trans ((skipFirst_sublist ..).trans List.filter_sublist)

theorem find_eq_shown [Pattern.Engine] (h : l.entries.map (·.document) = c.documents) (f : Filter)
    {options : Option FindOptions} (hsort : (options.getD .default).sort = none) :
    (c.find f options).2.map (·.documents) =
      (c.compile f).map fun q => (l.shown q (options.getD .default)).map (·.document) := by
  have hshown : ∀ q : Query, (options.getD .default).apply (q.select c.documents) =
      (l.shown q (options.getD .default)).map (·.document) := by
    intro q
    rw [← h, Query.select, List.filter_map, FindOptions.apply, hsort, skipFirst_map, limitTo_map]
    rfl
  rw [Collection.find, Collection.run]
  cases c.compile f with
  | error e => rfl
  | ok q => exact congrArg Except.ok (hshown q)

end Ledger

/-- Whatever is called and whichever calls fail, the stored documents are those
that came in and were not removed, in the order in which they came, each in the
form that updates have given it. -/
theorem Collection.stored_in_order_of_insertion [Pattern.Engine] (settings : CollectionSettings)
    (calls : List Action) :
    let c := (new settings).performAll calls
    let l := Ledger.ofCalls settings calls
    c.documents = l.entries.map (·.document) ∧
      l.tags.Pairwise (· < ·) ∧
      l.tags = (List.range l.log.length).filter (fun tag => !l.removed.contains tag) ∧
      c.documents.length + l.removed.length = l.log.length ∧
      (∀ e ∈ l.entries, ∃ d, l.log[e.tag]? = some d ∧ e.document.Descends d) ∧
      (∀ a, let next := Ledger.ofCalls settings (calls ++ [a])
        if a.removes then next.log = l.log ∧ next.entries.Sublist l.entries
        else next.removed = l.removed ∧
          List.Forall₂ Entry.Kept l.entries (next.entries.take l.entries.length)) ∧
      ∀ f options, (options.getD .default).sort = none →
        (c.find f options).2.map (·.documents) =
            (c.compile f).map (fun q => (l.shown q (options.getD .default)).map (·.document)) ∧
          ∀ q, (l.shown q (options.getD .default)).Sublist l.entries := by
  intro c l
  have hstored : l.entries.map (·.document) = c.documents := Ledger.documents_followAll rfl calls
  have hconsistent : l.Consistent := Ledger.Consistent.empty.followAll (new settings) calls
  refine ⟨hstored.symm, hconsistent.increasing, hconsistent.tags_eq, ?_, hconsistent.descended,
    fun a => ?_, fun f options hsort => ?_⟩
  · rw [← hstored, List.length_map]
    exact hconsistent.length_eq
  · rw [Ledger.ofCalls, Ledger.followAll_concat]
    exact l.follow_effect c a
  · exact ⟨Ledger.find_eq_shown hstored f hsort, fun q => l.shown_sublist q _⟩

/-- The second of three documents has an identifier that is taken, so the third
never comes in, and what is upserted has the next tag. -/
example :
    let draft (n : Int32) : Draft := ⟨⟨List.replicate 12 0, rfl⟩, [("_id", .int32 n)]⟩
    let fresh : ObjectId := ⟨List.replicate 12 1, rfl⟩
    let l := Ledger.ofCalls (.ofName "robots")
      [.insertMany [draft 1, draft 1, draft 2],
        .update false [("n", .value (.int32 7))] [("$set", .document [("on", .null)])] true fresh,
        .delete false [("_id", .value (.int32 1))]]
    l.tags = [1] ∧ l.removed = [0] := by
  decide

end DocStore
