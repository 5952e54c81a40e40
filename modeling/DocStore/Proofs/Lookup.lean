import DocStore.Proofs.Literals
import DocStore.Proofs.Runs

/-!
# Looking up what has been inserted

A lookup asks for an identifier, and finds the documents that have one that
the literal matches (`Collection.lookup`).

An identifier that was made up for a document finds this document, and no
other, whatever is inserted later (`Collection.findOne_generated`): it matches
only itself and the string that spells it, and insertion refuses both from now
on. For an identifier that comes with the document this is not quite so.
Insertion refuses what is the same identifier, and a lookup also finds what
only looks like it (`Collection.lookup_inserted`).
-/

namespace DocStore

/-- The filter that asks for an identifier. -/
def Filter.byIdentifier (id : Value) : Filter := [(idField, .value id)]

/-- A scalar that stands for itself in a filter and has no NaN in it. -/
structure Value.IsSearchable (id : Value) : Prop where
  literal : id.IsLiteral
  scalar : id.isArray = false ∧ id.isDocument = false
  free : id.NaNFree

/-! ## What a lookup finds -/

theorem plainConstraint_of_literal [Pattern.Engine] {id : Value} (h : id.IsLiteral) :
    ∃ k, plainConstraint id = .ok k := by
  cases id with
  | regex pattern options => exact h.elim
  | string s => exact ⟨_, if_neg h⟩
  | _ => exact ⟨_, rfl⟩

theorem compile_byIdentifier [Pattern.Engine] {settings : Settings} {id : Value}
    (hliteral : id.IsLiteral) (hscalar : id.isArray = false ∧ id.isDocument = false) :
    ∃ q, (Filter.byIdentifier id).compile settings = .ok q ∧
      ∀ d : Document, q.holds d = Meaning.constraint settings (d.get? idField) id := by
  obtain ⟨k, hk⟩ := plainConstraint_of_literal hliteral
  have hclause : compileClause settings idField id = .ok (.field idField k) := by
    have hfield : fieldClause idField (plainConstraint id) = .ok (.field idField k) := by
      have hrole : keyRole idField = .field := by decide
      rw [fieldClause, hrole, hk]
      rfl
    cases id with
    | array items => cases hscalar.1
    | document fields => cases hscalar.2
    | _ => exact hfield
  refine ⟨[.field idField k], ?_, fun d => ?_⟩
  · show compileConditions settings [(idField, .value id)] = _
    rw [compileConditions, compileCondition, hclause]
    rfl
  · show (k.holds (d.resolve? idField) && true) = _
    rw [Bool.and_true, d.resolve?_idField]
    exact holds_of_plainConstraint hscalar.2 hk _

namespace Collection

variable {c : Collection} {draft : Draft} {id : Value}

/-- A lookup finds the documents whose identifier the literal matches, in
order. -/
theorem lookup [Pattern.Engine] (c : Collection) (hliteral : id.IsLiteral)
    (hscalar : id.isArray = false ∧ id.isDocument = false) :
    let found := c.documents.filter fun d =>
      Meaning.constraint c.settings.compiler (d.get? idField) id
    (c.find (.byIdentifier id) none).2.map (·.documents) = .ok found ∧
      c.count (.byIdentifier id) = .ok found.length ∧
      (c.findOne (.byIdentifier id) none).2 = .ok found.head? := by
  intro found
  obtain ⟨q, hq, hholds⟩ : ∃ q, c.compile (.byIdentifier id) = .ok q ∧ ∀ d : Document,
      q.holds d = Meaning.constraint c.settings.compiler (d.get? idField) id :=
    compile_byIdentifier hliteral hscalar
  have hfound : q.select c.documents = found := by
    rw [Query.select, funext hholds]
  rw [find_of_compile hq, count_of_compile hq, findOne_of_compile hq, hfound]
  exact ⟨rfl, rfl, rfl⟩

end Collection

/-! ## Calls that only add -/

/-- The call leaves all stored documents as they are: it inserts some, asks for
some, or sets up an index. -/
def Action.OnlyAdds : Action → Prop
  | .update .. | .findOneAndUpdate .. | .delete .. | .drop => False
  | _ => True

namespace Collection

/-- What holds of the stored documents and goes on to hold with every document
that can be put behind them holds after every run of such calls. -/
theorem Reachable.of_onlyAdds [Pattern.Engine] {motive : List Document → Prop}
    {start later : Collection}
    (hadd : ∀ documents (draft : Draft), (∀ d ∈ documents, ¬ d.Identifies draft.complete.1) →
      motive documents → motive (documents ++ [draft.complete.2]))
    (hstart : motive start.documents) (run : Reachable (fun _ a => a.OnlyAdds) start later) :
    motive later.documents := by
  refine run.invariant (motive := fun c => motive c.documents) hstart fun c a hc ha => ?_
  have hone : ∀ {c after : Collection} {draft id}, c.add draft = .ok (after, id) →
      motive c.documents → motive after.documents := by
    intro c after draft id h hc
    obtain ⟨hfree, rfl, -⟩ := add_eq_ok_iff.mp h
    exact hadd c.documents draft hfree hc
  cases a with
  | insertOne draft =>
      rw [perform]
      rcases c.insertOne_cases draft with ⟨e, -, h⟩ | ⟨after, id, h', h⟩
      · rw [h]
        exact hc
      · rw [h]
        exact hone h' hc
  | insertMany drafts =>
      show motive (c.insertMany drafts).1.documents
      induction drafts generalizing c with
      | nil => exact hc
      | cons draft rest ih =>
          rw [insertMany]
          cases h : c.add draft with
          | error e => exact hc
          | ok result => exact ih _ (hone h hc) trivial
  | createIndexes models =>
      rw [perform, createIndexes_eq]
      exact hc
  | update | findOneAndUpdate | delete | drop => exact ha.elim
  | _ => exact hc

/-! ## Made-up identifiers -/

section Generated

variable {c : Collection} {draft : Draft} {id : ObjectId}

theorem identifies_objectId_iff {d : Document} :
    d.Identifies (.objectId id) ↔ Meaning.identifier id (d.get? idField) = true := by
  unfold Document.Identifies
  cases d.get? idField with
  | none => simp [Meaning.identifier]
  | some taken => simp [sameIdentifier_objectId]

theorem identifier_eq_false {v : Option Value} (hobject : v ≠ some (.objectId id))
    (htext : v ≠ some (.string id.hex)) : Meaning.identifier id v = false := by
  refine Bool.eq_false_iff.mpr fun hmatch => ?_
  unfold Meaning.identifier at hmatch
  split at hmatch
  · rename_i other
    exact hobject (by rw [beq_iff_eq.mp hmatch])
  · rename_i s
    exact htext (by rw [beq_iff_eq.mp hmatch])
  · cases hmatch

theorem sameIdentifier_of_identifier {taken : Value}
    (h : Meaning.identifier id (some taken) = true) :
    sameIdentifier (.objectId id) taken = true := by
  have hswapped : sameIdentifier taken (.objectId id) = true :=
    (sameIdentifier_objectId taken id).trans h
  cases taken with
  | objectId other => exact sameIdentifier_symm trivial trivial hswapped
  | string s => exact sameIdentifier_symm trivial trivial hswapped
  | _ => cases h

/-- Where one document has the identifier, insertion refuses any other that
would be found by it. -/
theorem filter_identifier_append {documents : List Document} {held : Document}
    (hheld : held.get? idField = some (.objectId id))
    (honly : documents.filter (fun d => Meaning.identifier id (d.get? idField)) = [held])
    (hfree : ∀ d ∈ documents, ¬ d.Identifies draft.complete.1) :
    (documents ++ [draft.complete.2]).filter (fun d => Meaning.identifier id (d.get? idField)) =
      [held] := by
  have hmem : held ∈ documents := by
    have hfound : held ∈ documents.filter _ := honly ▸ List.mem_singleton_self held
    exact (List.mem_filter.mp hfound).1
  have hmiss : Meaning.identifier id (draft.complete.2.get? idField) = false := by
    refine Bool.eq_false_iff.mpr fun hmatch => hfree held hmem ⟨_, hheld, ?_⟩
    rw [Draft.get?_complete] at hmatch
    exact sameIdentifier_of_identifier hmatch
  rw [List.filter_append, honly, List.filter_singleton, hmiss]
  rfl

/-- A document that comes without an identifier gets the one that has been made
up for it, before all its fields. From then on a lookup finds it, and no
other. -/
theorem findOne_generated [Pattern.Engine] (hmissing : draft.document.get? idField = none)
    (hfresh : ∀ d ∈ c.documents, d.get? idField ≠ some (.objectId draft.fresh) ∧
      d.get? idField ≠ some (.string draft.fresh.hex)) :
    (c.insertOne draft).2 = .ok (.objectId draft.fresh) ∧
      ∀ later, Reachable (fun _ a => a.OnlyAdds) (c.insertOne draft).1 later →
        (later.findOne (.byIdentifier (.objectId draft.fresh)) none).2 =
            .ok (some ((idField, .objectId draft.fresh) :: draft.document)) ∧
          later.count (.byIdentifier (.objectId draft.fresh)) = .ok 1 := by
  have hcomplete : draft.complete =
      (.objectId draft.fresh, (idField, .objectId draft.fresh) :: draft.document) := by
    rw [Draft.complete, hmissing]
  have hmiss : ∀ d ∈ c.documents, Meaning.identifier draft.fresh (d.get? idField) = false :=
    fun d hd => identifier_eq_false (hfresh d hd).1 (hfresh d hd).2
  have hfree : ∀ d ∈ c.documents, ¬ d.Identifies draft.complete.1 := by
    intro d hd hidentifies
    rw [hcomplete, identifies_objectId_iff, hmiss d hd] at hidentifies
    cases hidentifies
  rw [insertOne_of_free hfree]
  refine ⟨congrArg (Except.ok ·.1) hcomplete, fun later run => ?_⟩
  have hheld : draft.complete.2.get? idField = some (.objectId draft.fresh) := by
    rw [Draft.get?_complete, hcomplete]
  -- From call to call, what the identifier finds stays the one document.
  have honly : later.documents.filter
      (fun d => Meaning.identifier draft.fresh (d.get? idField)) = [draft.complete.2] := by
    refine run.of_onlyAdds (fun _ _ hfree honly => filter_identifier_append hheld honly hfree) ?_
    have hothers : c.documents.filter
        (fun d => Meaning.identifier draft.fresh (d.get? idField)) = [] := by simpa using hmiss
    rw [List.filter_append, hothers, List.filter_singleton, hheld]
    simp [Meaning.identifier]
  have hliteral : (Value.objectId draft.fresh).IsLiteral := trivial
  obtain ⟨-, hcount, hfirst⟩ := later.lookup hliteral ⟨rfl, rfl⟩
  have hfound : later.documents.filter (fun d => Meaning.constraint later.settings.compiler
      (d.get? idField) (.objectId draft.fresh)) = [draft.complete.2] := honly
  rw [hfirst, hcount, hfound, hcomplete]
  exact ⟨rfl, rfl⟩

end Generated

/-- A string that spells the identifier is refused. -/
theorem findOne_generated_later :
    let c : Collection := { new (.ofName "robots") with documents := [[(idField, .string "r1")]] }
    let draft : Draft := ⟨⟨List.replicate 12 0, rfl⟩, [("name", .string "ada")]⟩
    let next := (c.insertOne draft).1
    let later := (next.perform (.insertOne ⟨draft.fresh,
      [(idField, .string "000000000000000000000000")]⟩)).1
    (later.findOne (.byIdentifier (.objectId draft.fresh)) none).2 =
        .ok (some [(idField, .objectId draft.fresh), ("name", .string "ada")]) ∧
      later.count (.byIdentifier (.objectId draft.fresh)) = .ok 1 := by
  intro c draft next later
  have hfresh : ∀ d ∈ c.documents, d.get? idField ≠ some (.objectId draft.fresh) ∧
      d.get? idField ≠ some (.string draft.fresh.hex) := by
    have hhex : "r1" ≠ draft.fresh.hex := by decide
    intro d hd
    obtain rfl := List.mem_singleton.mp hd
    exact ⟨fun h => (nomatch h), fun h => hhex (Value.string.inj (Option.some.inj h))⟩
  exact (findOne_generated rfl hfresh).2 later (.call .start trivial)

/-! ## Identifiers that come with the document -/

section Given

variable {c : Collection} {draft : Draft} {id answer : Value}

/-- Every document that was inserted has an identifier. -/
theorem hasIdentifier_of_onlyAdds [Pattern.Engine] {settings : CollectionSettings}
    (run : Reachable (fun _ a => a.OnlyAdds) (.new settings) c) :
    ∀ d ∈ c.documents, ∃ taken, d.get? idField = some taken := by
  refine run.of_onlyAdds (motive := fun documents => ∀ d ∈ documents, ∃ taken, d.get? idField =
    some taken) (fun documents draft _ h => ?_) (List.forall_mem_nil _)
  refine List.forall_mem_append.mpr ⟨h, ?_⟩
  exact List.forall_mem_singleton.mpr ⟨_, draft.get?_complete⟩

/-- Among documents with other identifiers, a lookup finds the lookalikes. -/
theorem constraint_of_not_identifies [Pattern.Engine] {settings : Settings} {d : Document}
    (hsearchable : id.IsSearchable) (hpresent : ∃ taken, d.get? idField = some taken)
    (hfree : ¬ d.Identifies id) :
    Meaning.constraint settings (d.get? idField) id =
      (d.get? idField).any fun taken => taken.looksLike id := by
  obtain ⟨taken, htaken⟩ := hpresent
  have hother : sameIdentifier taken id = false :=
    Bool.eq_false_iff.mpr fun hsame => hfree ⟨taken, htaken, hsame⟩
  rw [htaken, Option.any_some]
  exact Meaning.constraint_eq_looksLike hsearchable.literal hsearchable.scalar hother

/-- A lookup for an identifier that came with its document finds this document,
and before it those whose identifiers only look like it. There are none if all
the identifiers in the store are of one family. -/
theorem lookup_inserted [Pattern.Engine] {settings : CollectionSettings}
    (run : Reachable (fun _ a => a.OnlyAdds) (.new settings) c)
    (hdraft : draft.document.WellFormed) (hid : draft.document.get? idField = some id)
    (hsearchable : id.IsSearchable) (hcall : (c.insertOne draft).2 = .ok answer) :
    let after := (c.insertOne draft).1
    let lookalikes := c.documents.filter fun d => (d.get? idField).any fun v => v.looksLike id
    answer = id ∧
      (after.find (.byIdentifier id) none).2.map (·.documents) =
        .ok (lookalikes ++ [draft.document]) ∧
      after.count (.byIdentifier id) = .ok (lookalikes.length + 1) ∧
      (after.findOne (.byIdentifier id) none).2 = .ok (some (lookalikes.headD draft.document)) ∧
      ((∀ d ∈ c.documents, ∀ taken, d.get? idField = some taken → taken.sameFamily id = true) →
        after.count (.byIdentifier id) = .ok 1 ∧
          (after.findOne (.byIdentifier id) none).2 = .ok (some draft.document)) := by
  intro after lookalikes
  have hcomplete : draft.complete = (id, draft.document) := by rw [Draft.complete, hid]
  have hpresent := hasIdentifier_of_onlyAdds run
  have hfree : ∀ d ∈ c.documents, ¬ d.Identifies id := by
    have hall := free_of_insertOne hcall
    rwa [hcomplete] at hall
  have hinserted : c.insertOne draft =
      ({ c with documents := c.documents ++ [draft.document] }, .ok id) := by
    have hall := insertOne_of_free (free_of_insertOne hcall)
    rwa [hcomplete] at hall
  have hafter : after = { c with documents := c.documents ++ [draft.document] } :=
    congrArg Prod.fst hinserted
  have hanswer : answer = id :=
    (Except.ok.inj ((congrArg Prod.snd hinserted).symm.trans hcall)).symm
  -- The document matches its own identifier, and of the others only lookalikes do.
  have hself : Meaning.constraint c.settings.compiler (draft.document.get? idField) id =
      true := by
    rw [hid]
    exact Meaning.constraint_self hsearchable.literal (hdraft.get? hid) hsearchable.free
  have hothers : c.documents.filter (fun d => Meaning.constraint c.settings.compiler
      (d.get? idField) id) = lookalikes :=
    List.filter_congr fun d hd =>
      constraint_of_not_identifies hsearchable (hpresent d hd) (hfree d hd)
  obtain ⟨hfind, hcount, hfirst⟩ := after.lookup hsearchable.literal hsearchable.scalar
  have hfound : after.documents.filter (fun d => Meaning.constraint after.settings.compiler
      (d.get? idField) id) = lookalikes ++ [draft.document] := by
    rw [hafter, List.filter_append, hothers, List.filter_singleton, hself]
    rfl
  rw [hfound] at hfind hcount hfirst
  have hone : after.count (.byIdentifier id) = .ok (lookalikes.length + 1) := by
    rw [hcount, List.length_append, List.length_singleton]
  have hhead : (after.findOne (.byIdentifier id) none).2 =
      .ok (some (lookalikes.headD draft.document)) := by
    rw [hfirst]
    cases lookalikes <;> rfl
  refine ⟨hanswer, hfind, hone, hhead, fun hfamily => ?_⟩
  have hnone : lookalikes = [] := by
    refine List.filter_eq_nil_iff.mpr fun d hd hlooks => ?_
    obtain ⟨taken, htaken, hlooks⟩ := Option.any_eq_true .. |>.mp hlooks
    rw [Value.looksLike_of_sameFamily (hfamily d hd taken htaken)] at hlooks
    cases hlooks
  rw [hnone] at hone hhead
  exact ⟨hone, hhead⟩

/-- Both widths of integer are one family. -/
theorem lookup_inserted_integer :
    let start := new (.ofName "robots")
    let fresh : ObjectId := ⟨List.replicate 12 0, rfl⟩
    let c := (start.perform (.insertOne ⟨fresh, [(idField, .int64 1)]⟩)).1
    let draft : Draft := ⟨fresh, [(idField, .int32 2)]⟩
    let after := (c.insertOne draft).1
    after.count (.byIdentifier (.int32 2)) = .ok 1 ∧
      (after.findOne (.byIdentifier (.int32 2)) none).2 = .ok (some draft.document) := by
  intro start fresh c draft after
  have hdraft : draft.document.WellFormed := ⟨by decide, trivial, trivial⟩
  have hsearchable : (Value.int32 2).IsSearchable :=
    ⟨trivial, ⟨rfl, rfl⟩, .of_scalar (fun d h => nomatch h) rfl⟩
  have hcall : (c.insertOne draft).2 = .ok (.int32 2) := rfl
  have run : Reachable (fun _ a => a.OnlyAdds) start c := .call .start trivial
  obtain ⟨-, -, -, -, hfamily⟩ := lookup_inserted run hdraft rfl hsearchable hcall
  refine hfamily fun d hd taken htaken => ?_
  obtain rfl := List.mem_singleton.mp hd
  obtain rfl := Option.some.inj htaken
  rfl

theorem count_lookalike :
    let c : Collection := { new (.ofName "robots") with documents := [[(idField, .int32 1)]] }
    let one : Value := .double ⟨0x3FF0000000000000⟩
    (c.insertOne ⟨⟨List.replicate 12 0, rfl⟩, [(idField, one)]⟩).1.count (.byIdentifier one) =
      .ok 2 :=
  rfl

/-- The lookup for the double 1.0 also finds the integer 1. -/
theorem not_lookup_exact :
    ¬ ∀ (settings : CollectionSettings) (c : Collection) (draft : Draft) (id : Value),
      Reachable (fun _ a => a.OnlyAdds) (.new settings) c → draft.document.WellFormed →
      draft.document.get? idField = some id → id.IsSearchable → (c.insertOne draft).2 = .ok id →
      (c.insertOne draft).1.count (.byIdentifier id) = .ok 1 ∧
        ((c.insertOne draft).1.findOne (.byIdentifier id) none).2 = .ok (some draft.document) := by
  intro hexact
  let one : Double := ⟨0x3FF0000000000000⟩
  let fresh : ObjectId := ⟨List.replicate 12 0, rfl⟩
  have hdraft : Document.WellFormed [(idField, .double one)] := ⟨by decide, trivial, trivial⟩
  have hsearchable : (Value.double one).IsSearchable := by
    refine ⟨trivial, ⟨rfl, rfl⟩, .intro (fun d hd => ?_) fun w hw => nomatch hw⟩
    obtain rfl := Value.double.inj hd
    decide
  have hreached : Reachable (fun _ a => a.OnlyAdds) (.new (.ofName "robots"))
      ((new (.ofName "robots")).perform (.insertOne ⟨fresh, [(idField, .int32 1)]⟩)).1 :=
    .call .start trivial
  obtain ⟨hfound, -⟩ := hexact _ _ ⟨fresh, [(idField, .double one)]⟩ _ hreached hdraft rfl
    hsearchable rfl
  cases count_lookalike.symm.trans hfound

end Given

end Collection

end DocStore
