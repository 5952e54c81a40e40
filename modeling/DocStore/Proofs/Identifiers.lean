import DocStore.Proofs.Equality
import DocStore.Proofs.Runs

/-!
# Every stored document has an identifier of its own

`Identified` is the invariant of a store: every document has an identifier, and
no two documents clash, in whatever order they are compared. Insertion looks at
one order only, so the other one is the symmetry of `sameIdentifier`, which
needs distinct names; `Sound` carries both.

Insertion and deletion keep a store sound whatever they are given. An update
does if none of its paths is under `_id` (`Action.SparesIdentifiers`), and then
so does every run (`identified_of_reachable`). That condition cannot be
relaxed: a path under `_id` is enough to make two stored documents clash
(`updates_keep_identified_iff`).
-/

namespace DocStore

open DocStore.Path (Under)

/-! ## The invariant -/

/-- The first document identifies the other one. -/
def Document.Clashes (a b : Document) : Prop := ∃ id, b.get? idField = some id ∧ a.Identifies id

structure Identified (documents : List Document) : Prop where
  present : ∀ d ∈ documents, ∃ id, d.get? idField = some id
  distinct : documents.Pairwise fun a b => ¬ a.Clashes b ∧ ¬ b.Clashes a

/-- Stored documents with distinct names and identifiers. -/
structure Sound (documents : List Document) : Prop extends Identified documents where
  wellFormed : ∀ d ∈ documents, d.WellFormed

section Documents

variable {a b d : Document} {documents changed : List Document}

theorem Document.Clashes.symm (ha : a.WellFormed) (hb : b.WellFormed) (h : a.Clashes b) :
    b.Clashes a := by
  obtain ⟨id, hid, taken, htaken, hsame⟩ := h
  exact ⟨taken, htaken, id, hid, sameIdentifier_symm (ha.get? htaken) (hb.get? hid) hsame⟩

/-- A clash only looks at the identifiers. -/
theorem Document.clashes_congr {a' b' : Document} (ha : a'.get? idField = a.get? idField)
    (hb : b'.get? idField = b.get? idField) : a'.Clashes b' ↔ a.Clashes b := by
  unfold Clashes Identifies
  rw [ha, hb]

theorem Sound.nil : Sound [] :=
  ⟨⟨List.forall_mem_nil _, .nil⟩, List.forall_mem_nil _⟩

theorem Sound.sublist (h : Sound documents) (hsub : changed.Sublist documents) :
    Sound changed :=
  ⟨⟨fun d hd => h.present d (hsub.subset hd), h.distinct.sublist hsub⟩,
    fun d hd => h.wellFormed d (hsub.subset hd)⟩

/-- A document goes to the end if no stored one has its identifier. -/
theorem Sound.append (h : Sound documents) {id : Value} (hd : d.WellFormed)
    (hid : d.get? idField = some id) (hfree : ∀ old ∈ documents, ¬ old.Identifies id) :
    Sound (documents ++ [d]) := by
  refine ⟨⟨?_, ?_⟩, ?_⟩
  · intro e he
    rcases List.mem_append.mp he with hold | hnew
    · exact h.present e hold
    · exact ⟨id, List.mem_singleton.mp hnew ▸ hid⟩
  · refine List.pairwise_append.mpr ⟨h.distinct, List.pairwise_singleton .., ?_⟩
    intro old hold e he
    obtain rfl := List.mem_singleton.mp he
    have hclash : ¬ old.Clashes e := by
      rintro ⟨id', hid', hidentifies⟩
      obtain rfl := Option.some.inj (hid.symm.trans hid')
      exact hfree old hold hidentifies
    exact ⟨hclash, fun hswapped => hclash (hswapped.symm hd (h.wellFormed old hold))⟩
  · intro e he
    rcases List.mem_append.mp he with hold | hnew
    · exact h.wellFormed e hold
    · exact List.mem_singleton.mp hnew ▸ hd

/-- Documents may be rewritten where they stand if they keep their
identifiers. -/
theorem Sound.rewrite (h : Sound documents)
    (hrewrite : List.Forall₂ (fun old new => (old.WellFormed → new.WellFormed) ∧
      new.get? idField = old.get? idField) documents changed) : Sound changed := by
  obtain ⟨hlength, hpairs⟩ := List.forall₂_iff_get.mp hrewrite
  simp only [List.get_eq_getElem] at hpairs
  have hold : ∀ d ∈ changed, ∃ old ∈ documents, (old.WellFormed → d.WellFormed) ∧
      d.get? idField = old.get? idField := by
    intro d hd
    obtain ⟨i, hi, rfl⟩ := List.mem_iff_getElem.mp hd
    have hi' : i < documents.length := hlength ▸ hi
    exact ⟨documents[i], List.getElem_mem hi', hpairs i hi' hi⟩
  refine ⟨⟨?_, ?_⟩, ?_⟩
  · intro d hd
    obtain ⟨old, hmem, -, hid⟩ := hold d hd
    rw [hid]
    exact h.present old hmem
  · refine List.pairwise_iff_getElem.mpr fun i j hi hj hlt => ?_
    have hi' : i < documents.length := hlength ▸ hi
    have hj' : j < documents.length := hlength ▸ hj
    have hdistinct := List.pairwise_iff_getElem.mp h.distinct i j hi' hj' hlt
    rwa [Document.clashes_congr (hpairs i hi' hi).2 (hpairs j hj' hj).2,
      Document.clashes_congr (hpairs j hj' hj).2 (hpairs i hi' hi).2]
  · intro d hd
    obtain ⟨old, hmem, hwellFormed, -⟩ := hold d hd
    exact hwellFormed (h.wellFormed old hmem)

end Documents

/-! ## Drafts -/

namespace Draft

variable {draft : Draft}

theorem complete_wellFormed (h : draft.document.WellFormed) : draft.complete.2.WellFormed := by
  unfold complete
  split
  · exact h
  · rename_i hmissing
    have hnew : idField ∉ draft.document.keys := by
      rw [Document.mem_keys_iff, hmissing]
      simp
    exact ⟨List.nodup_cons.mpr ⟨hnew, h.nodup⟩, trivial, h.2⟩

theorem MadeFrom.wellFormed {f : Filter} {spec : Document} (hf : f.WellFormed)
    (hspec : spec.WellFormed) (h : draft.MadeFrom f spec) : draft.document.WellFormed := by
  obtain ⟨u, hu, hmade⟩ := h
  exact Update.upsertDocument_wellFormed (Update.parse_wellFormed hspec hu) hf hmade

end Draft

/-! ## Calls -/

namespace Action

variable {a : Action} {c : Collection}

theorem Inserts.wellFormed {draft : Draft} (ha : a.WellFormed) (h : a.Inserts draft) :
    draft.document.WellFormed := by
  cases a with
  | insertOne given => exact h ▸ ha
  | insertMany drafts => exact ha draft h
  | update | findOneAndUpdate => exact h.2.wellFormed ha.1 ha.2
  | _ => cases h

variable [Pattern.Engine]

theorem Applies.wellFormed {u : Update} {d : Document} (ha : a.WellFormed)
    (h : a.Applies c u d) : u.WellFormed := by
  cases a with
  | update | findOneAndUpdate => exact Update.parse_wellFormed ha.2 h.1
  | _ => cases h

/-- The call is an update. -/
def Updates : Action → Prop
  | update .. => True
  | findOneAndUpdate .. => True
  | _ => False

/-- The call updates a stored document at the path. -/
def Writes (a : Action) (c : Collection) (path : String) : Prop :=
  ∃ u, ∃ d ∈ c.documents, a.Applies c u d ∧ ∃ v, (path, v) ∈ u.fields

/-- No stored document is updated at its identifier or inside of it. -/
def SparesIdentifiers (a : Action) (c : Collection) : Prop :=
  ∀ path, a.Writes c path → ¬ Under path idField

end Action

/-- Each of the three changes keeps a store sound. -/
theorem Change.sound [Pattern.Engine] {c : Collection} {a : Action}
    {documents changed : List Document} (ha : a.WellFormed) (hspares : a.SparesIdentifiers c)
    (h : Change c a documents changed) (hsound : Sound documents) : Sound changed := by
  cases h with
  | append hdraft hfree =>
      exact hsound.append (Draft.complete_wellFormed (hdraft.wellFormed ha))
        (Draft.get?_complete _) hfree
  | rewrite hrewrite =>
      have hstored := (List.forall₂_and_left (p := (· ∈ c.documents)) ..).mpr
        ⟨fun _ hmem => hmem, hrewrite⟩
      refine hsound.rewrite (hstored.imp fun old new hnew => ?_)
      obtain ⟨hmem, rfl | ⟨u, differs, happlies, happly⟩⟩ := hnew
      · exact ⟨id, rfl⟩
      · refine ⟨fun hold => Update.apply_wellFormed (happlies.wellFormed ha) hold happly, ?_⟩
        refine (Update.edits_apply happly).get?_eq fun field hfield => ?_
        exact hspares field.1 ⟨u, old, hmem, happlies, field.2, hfield⟩
  | remove hsub => exact hsound.sublist hsub

/-! ## An update of one field -/

def ObjectId.zero : ObjectId := ⟨List.replicate 12 0, List.length_replicate⟩

theorem Update.parse_set (path : String) (v : Value) :
    parse [("$set", .document [(path, v)])] = .ok (operators [(.set, [(path, v)])]) :=
  parse_single .set [(path, v)]

theorem Action.writes_set [Pattern.Engine] {c : Collection} {many upsert : Bool} {f : Filter}
    {fresh : ObjectId} {path other : String} {v : Value}
    (h : (Action.update many f [("$set", .document [(path, v)])] upsert fresh).Writes c other) :
    other = path := by
  obtain ⟨u, d, -, ⟨hu, -⟩, w, hfield⟩ := h
  obtain rfl := Except.ok.inj ((Update.parse_set path v).symm.trans hu)
  have hfields : (Update.operators [(.set, [(path, v)])]).fields = [(path, v)] := rfl
  rw [hfields, List.mem_singleton] at hfield
  exact congrArg Prod.fst hfield

/-! ## Runs -/

namespace Collection

theorem perform_sound [Pattern.Engine] {c : Collection} {a : Action} (ha : a.WellFormed)
    (hspares : a.SparesIdentifiers c) (hsound : Sound c.documents) :
    Sound (c.perform a).1.documents := by
  have hchanges := perform_changes c a
  generalize (c.perform a).1.documents = after at hchanges ⊢
  induction hchanges with
  | refl => exact hsound
  | tail _ hchange ih => exact hchange.sound ha hspares ih

/-- In whatever state a run can end up, every stored document has an
identifier of its own. -/
theorem identified_of_reachable [Pattern.Engine] {settings : CollectionSettings} {c : Collection}
    (run : Reachable (fun c a => a.WellFormed ∧ a.SparesIdentifiers c) (.new settings) c) :
    Identified c.documents := by
  have hsound : Sound c.documents :=
    run.invariant (motive := fun c => Sound c.documents) .nil
      fun c a hsound hallowed => perform_sound hallowed.1 hallowed.2 hsound
  exact hsound.toIdentified

/-- An insertion that gets a fresh identifier, and an upsert that takes its
identifier from the filter. -/
theorem identified_of_insert_upsert :
    Identified ((((new (.ofName "robots")).perform
      (.insertOne ⟨ObjectId.zero, [("name", .string "ada")]⟩)).1.perform
        (.update true [(idField, .value (.int32 7))]
          [("$set", .document [("name", .string "eve")])] true ObjectId.zero)).1).documents := by
  refine identified_of_reachable (.call (.call .start ⟨?_, ?_⟩) ⟨⟨?_, ?_⟩, ?_⟩)
  · exact ⟨List.nodup_singleton _, trivial, trivial⟩
  · rintro path ⟨u, d, -, happlies, -⟩
    exact happlies.elim
  · intro key v hmem
    obtain ⟨-, hv⟩ := (Prod.mk.injEq ..).mp (List.mem_singleton.mp hmem)
    exact Condition.value.inj hv ▸ trivial
  · exact ⟨List.nodup_singleton _, ⟨List.nodup_singleton _, trivial, trivial⟩, trivial⟩
  · rintro path hwrites hunder
    obtain rfl := Action.writes_set hwrites
    obtain ⟨rest, hsegments⟩ := Path.segments_of_under (by decide) hunder
    have hname : Path.segments "name" = ["name"] := by decide
    rw [hname] at hsegments
    exact absurd (List.cons.inj hsegments).1 (by decide)

end Collection

/-! ## A path under the identifier -/

/-- A null below documents of one field each. -/
def nested : List String → Value
  | [] => .null
  | key :: rest => .document [(key, nested rest)]

theorem setAt_nested (owner : String) (keys : List String) :
    (Value.document []).setAt owner keys .null = .ok (nested keys) := by
  induction keys generalizing owner with
  | nil => rw [Value.setAt, nested]
  | cons key rest ih =>
      have hslot : (Document.get? [] key).getD (.document []) = .document [] := rfl
      rw [Value.setAt, hslot, ih key]
      rfl

theorem nested_wellFormed (keys : List String) : (nested keys).WellFormed := by
  induction keys with
  | nil => trivial
  | cons key rest ih => exact ⟨List.nodup_singleton _, ih, trivial⟩

theorem sameIdentifier_nested (keys : List String) :
    sameIdentifier (nested keys) (nested keys) = true := by
  have hstrict : (nested keys).strictEq (nested keys) = true := by
    induction keys with
    | nil => rfl
    | cons key rest ih =>
        rw [nested, Value.strictEq]
        exact strictFields_iff.mpr (.cons ⟨rfl, ih⟩ .nil)
  cases keys with
  | nil => rfl
  | cons key rest => exact hstrict

/-- What the empty document becomes is neither the same as it was nor the same
identifier. -/
theorem same_nested (keys : List String) :
    (nested keys).same (.document []) = false ∧
      sameIdentifier (.document []) (nested keys) = false := by
  cases keys <;> exact ⟨rfl, rfl⟩

namespace Collection

/-- Two documents of which an update at `_id :: keys` makes two of the same
identifier. -/
def almostClashing (keys : List String) : Collection :=
  { new (.ofName CollectionSettings.defaultName) with
    documents := [[(idField, .document [])], [(idField, nested keys)]] }

theorem almostClashing_sound (keys : List String) : Sound (almostClashing keys).documents := by
  have hid : ∀ v, Document.get? [(idField, v)] idField = some v := fun v => rfl
  have hclash : ¬ Document.Clashes [(idField, .document [])] [(idField, nested keys)] := by
    rintro ⟨id, hid, taken, htaken, hsame⟩
    obtain rfl := Option.some.inj hid
    obtain rfl := Option.some.inj htaken
    rw [(same_nested keys).2] at hsame
    cases hsame
  have hfirst : Sound [[(idField, .document [])]] := by
    refine Sound.nil.append ?_ (hid (.document [])) (List.forall_mem_nil _)
    exact ⟨List.nodup_singleton _, ⟨List.nodup_nil, trivial⟩, trivial⟩
  refine hfirst.append ?_ (hid (nested keys)) ?_
  · exact ⟨List.nodup_singleton _, nested_wellFormed keys, trivial⟩
  · intro old hold hidentifies
    obtain rfl := List.mem_singleton.mp hold
    exact hclash ⟨_, hid _, hidentifies⟩

/-- The update that sets a null at the path, in the first document. -/
def setNull (path : String) : Action :=
  .update false .empty [("$set", .document [(path, .null)])] false .zero

theorem apply_setNull {path : String} {keys : List String}
    (h : Path.segments path = idField :: keys) :
    (Update.operators [(.set, [(path, .null)])]).apply [(idField, .document [])] =
      .ok ([(idField, nested keys)], true) := by
  have hset : Document.set [(idField, .document [])] path .null = .ok [(idField, nested keys)] := by
    have hslot : (Document.get? [(idField, .document [])] idField).getD (.document []) =
        .document [] := rfl
    rw [Document.set, h]
    dsimp only
    rw [hslot, setAt_nested]
    rfl
  have hdiffers : Document.same [(idField, nested keys)] [(idField, .document [])] = false := by
    simp [Document.same, sameFields, (same_nested keys).1]
  have hrun : Update.applyOperators [(idField, .document [])] [(.set, [(path, .null)])] =
      .ok [(idField, nested keys)] := by
    rw [Update.applyOperators, UpdateOperator.apply, UpdateOperator.applyField, hset]
    rfl
  rw [Update.apply, hrun]
  simp [bind, Except.bind, pure, Except.pure, hdiffers]

variable [Pattern.Engine]

theorem perform_setNull {path : String} {keys : List String}
    (h : Path.segments path = idField :: keys) :
    ((almostClashing keys).perform (setNull path)).1.documents =
      [[(idField, nested keys)], [(idField, nested keys)]] := by
  have hcompile : (almostClashing keys).compile .empty = .ok [] := rfl
  have hmatching : updateMatching [] (.operators [(.set, [(path, .null)])]) false
      (almostClashing keys).documents =
        .ok ⟨[[(idField, nested keys)], [(idField, nested keys)]], 1, 1⟩ := by
    rw [almostClashing, updateMatching, apply_setNull h]
    rfl
  rw [setNull, perform, update, Update.parse_set, hcompile]
  simp only [bind, Except.bind, hmatching]
  rfl

/-- What is set under the identifier can make two documents clash. -/
theorem not_identified_setNull {path : String} {keys : List String}
    (h : Path.segments path = idField :: keys) :
    ¬ Identified ((almostClashing keys).perform (setNull path)).1.documents := by
  rw [perform_setNull h]
  intro hidentified
  obtain ⟨hfirst, -⟩ := List.pairwise_cons.mp hidentified.distinct
  exact (hfirst _ (List.mem_singleton_self _)).1
    ⟨nested keys, rfl, nested keys, rfl, sameIdentifier_nested keys⟩

/-- Updates keep the identifiers of a sound store, in whatever collection, just
if no path that they may write is under the identifier. Any single one that is
would be enough to lose them. -/
theorem updates_keep_identified_iff (writable : String → Prop) :
    (∀ (c : Collection) (a : Action), a.Updates → a.WellFormed → Sound c.documents →
        (∀ path, a.Writes c path → writable path) → Identified (c.perform a).1.documents) ↔
      ∀ path, writable path → ¬ Under path idField := by
  constructor
  · intro hkeep path hwritable hunder
    obtain ⟨keys, hsegments⟩ := Path.segments_of_under (by decide) hunder
    refine not_identified_setNull hsegments (hkeep _ _ trivial ?_ (almostClashing_sound keys) ?_)
    · have hspec : Document.WellFormed [("$set", .document [(path, .null)])] :=
        ⟨List.nodup_singleton _, ⟨List.nodup_singleton _, trivial, trivial⟩, trivial⟩
      exact ⟨fun _ _ hmem => (List.not_mem_nil hmem).elim, hspec⟩
    · intro other hwrites
      rwa [Action.writes_set hwrites]
  · intro hspared c a _ ha hsound hwrites
    have hspares : a.SparesIdentifiers c := fun path hpath => hspared path (hwrites path hpath)
    exact (perform_sound ha hspares hsound).toIdentified

end Collection

end DocStore
