import DocStore.Proofs.Divergence
import DocStore.Proofs.Literals
import DocStore.Proofs.Pointwise

/-!
# Upserts that find their own document

A literal filter says of some fields what they are equal to, and nothing else
(`Filter.Literal`). A document shows it if each of these fields reads back
(`Document.Shows`), and then it satisfies the filter (`Filter.holds_of_shows`).

What an upsert inserts shows its filter if the update has only paths that
diverge from those of the filter (`Update.SparesFields`): the pinned fields are
set first, and no write at the other paths is seen from them. For the same
reason a document goes on showing the filter when it is updated. So one call
inserts a document, and every later one finds this document and no other
(`Collection.upserts_once`).
-/

namespace DocStore

open DocStore.Path

/-! ## Literal filters -/

/-- The condition asks for a field that is equal to the value. -/
inductive Condition.Pins : Condition → Value → Prop where
  | literal {v : Value} (h : v.IsLiteral) : Pins (.value v) v
  | equal (v : Value) : Pins (.value (.document [("$eq", v)])) v

/-- Every entry pins a field to a value without NaN, and no two entries are
about the same place in a document. -/
structure Filter.Literal (f : Filter) : Prop where
  pins : ∀ entry ∈ f, ∃ v, entry.2.Pins v ∧ v.NaNFree
  named : ∀ entry ∈ f, entry.1 ≠ "" ∧ Document.isOperatorKey entry.1 = false
  /-- Under a number, a document would be a filter of its own. -/
  single : ∀ entry ∈ f, ∀ v, entry.2.Pins v → isNumericKey entry.1 = true → v.isDocument = false
  diverging : f.Pairwise fun a b => Diverging a.1 b.1

/-- Each field that the filter pins has the value that it is pinned to. -/
def Document.Shows (d : Document) (f : Filter) : Prop :=
  ∀ entry ∈ f, ∀ v, entry.2.Pins v → d.resolve? entry.1 = some v

/-- The update writes nowhere near the fields of the filter. -/
def Update.SparesFields (u : Update) (f : Filter) : Prop :=
  ∀ field ∈ u.fields, ∀ entry ∈ f, Diverging field.1 entry.1

/-! ### The filter compiles -/

theorem compileCondition_of_mem [Pattern.Engine] {settings : Settings} {f : Filter} {q : Query}
    (hq : f.compile settings = .ok q) {entry : String × Condition} (hentry : entry ∈ f) :
    ∃ clause, compileCondition settings entry.1 entry.2 = .ok clause := by
  unfold Filter.compile at hq
  induction f generalizing q with
  | nil => cases hentry
  | cons first rest ih =>
      rw [compileConditions] at hq
      obtain ⟨clause, hclause, hq⟩ := bind_eq_ok_iff.mp hq
      obtain ⟨clauses, hclauses, -⟩ := bind_eq_ok_iff.mp hq
      rcases List.mem_cons.mp hentry with rfl | hrest
      · exact ⟨clause, hclause⟩
      · exact ih hclauses hrest

theorem keyRole_of_plain {key : String} (hplain : Document.isOperatorKey key = false) :
    keyRole key = if isNumericKey key then .numeric else .field := by
  unfold keyRole
  split
  case h_5 => rw [hplain, if_neg Bool.false_ne_true]
  all_goals cases hplain

/-- Under a number, an operator would have to be a field. -/
theorem compileClause_numeric_equal [Pattern.Engine] {settings : Settings} {key : String}
    (hrole : keyRole key = .numeric) (v : Value) (clause : Clause) :
    compileClause settings key (.document [("$eq", v)]) ≠ .ok clause := by
  have hequal : ∀ clause, compileClause settings "$eq" v ≠ .ok clause := by
    have hrole : keyRole "$eq" = .unknownOperator := by decide
    intro clause
    cases v <;> simp [compileClause, fieldClause, hrole]
  intro h
  rw [compileClause, hrole] at h
  obtain ⟨clauses, hclauses, -⟩ := map_eq_ok_iff.mp h
  rw [compileClauses] at hclauses
  obtain ⟨first, hfirst, -⟩ := bind_eq_ok_iff.mp hclauses
  exact hequal first hfirst

/-- Each entry is about one field. -/
theorem Filter.Literal.isGroup_eq_false [Pattern.Engine] {settings : Settings} {f : Filter}
    {q : Query} (h : f.Literal) (hq : f.compile settings = .ok q) {entry : String × Condition}
    (hentry : entry ∈ f) (hnumeric : isNumericKey entry.1 = true) :
    Meaning.isGroup entry.2 = false := by
  obtain ⟨v, hpins, -⟩ := h.pins entry hentry
  obtain ⟨clause, hclause⟩ := compileCondition_of_mem hq hentry
  obtain ⟨key, c⟩ := entry
  cases hpins with
  | literal hliteral => exact h.single _ hentry v (.literal hliteral) hnumeric
  | equal _ =>
      have hrole : keyRole key = .numeric := 
        (keyRole_of_plain (h.named _ hentry).2).trans (if_pos hnumeric)
      exact absurd hclause (compileClause_numeric_equal hrole v clause)

/-! ### The filter is true -/

theorem Condition.Pins.wellFormed {c : Condition} {v : Value} (h : c.Pins v)
    (hc : ∀ w, c = .value w → w.WellFormed) : v.WellFormed := by
  cases h with
  | literal _ => exact hc v rfl
  | equal _ => exact Document.WellFormed.field (hc _ rfl) (List.mem_singleton_self _)

theorem hasOperatorKey_equal (v : Value) : Document.hasOperatorKey [("$eq", v)] = true := by
  have hkey : Document.isOperatorKey "$eq" = true := by decide
  simp [Document.hasOperatorKey, Document.keys, hkey]

theorem Meaning.condition_of_pins [Pattern.Engine] {settings : Settings} {c : Condition} {v : Value}
    (h : c.Pins v) (hv : v.WellFormed) (hfree : v.NaNFree) :
    condition settings (some v) c = true := by
  cases h with
  | literal hliteral => exact constraint_self hliteral hv hfree
  | equal _ =>
      have hself : v.strictEq v = true := Value.strictEq_self hv hfree
      rw [condition, constraint, if_pos (hasOperatorKey_equal v)]
      simp [operators, plainOperator, hself]

theorem Meaning.conditions_eq_true_iff [Pattern.Engine] {settings : Settings} {d : Document}
    {f : Filter} :
    conditions settings d f = true ↔ ∀ e ∈ f, entry e.1 (isGroup e.2) (groups settings d e.2)
      (condition settings (d.resolve? e.1) e.2) = true := by
  induction f with
  | nil => simp [conditions]
  | cons e rest ih => rw [conditions, Bool.and_eq_true, ih, List.forall_mem_cons]

/-- A document satisfies the literal filters that it shows. -/
theorem Filter.holds_of_shows [Pattern.Engine] {settings : Settings} {f : Filter} {q : Query}
    {d : Document} (hf : f.WellFormed) (hliteral : f.Literal) (hq : f.compile settings = .ok q)
    (hshows : d.Shows f) : q.holds d = true := by
  have hmeaning : q.holds d = Meaning.conditions settings d f := holds_of_compileConditions f hq d
  rw [hmeaning, Meaning.conditions_eq_true_iff]
  rintro ⟨key, c⟩ hentry
  obtain ⟨v, hpins, hfree⟩ := hliteral.pins _ hentry
  have hv : v.WellFormed := hpins.wellFormed fun w hw => hf key w (hw ▸ hentry)
  have hcondition : Meaning.condition settings (d.resolve? key) c = true := by
    rw [hshows _ hentry v hpins]
    exact Meaning.condition_of_pins hpins hv hfree
  -- The key has no role of its own, so that the entry is what it asks of its field.
  have hkey : key ∉ ["$and", "$or", "$nor", "$isolated"] := by
    have hplain : Document.isOperatorKey key = false := (hliteral.named _ hentry).2
    intro hmem
    simp only [List.mem_cons, List.not_mem_nil, or_false] at hmem
    rcases hmem with rfl | rfl | rfl | rfl <;> cases hplain
  have hgroup : (isNumericKey key && Meaning.isGroup c) = false := by
    cases hnumeric : isNumericKey key with
    | false => rfl
    | true => exact hliteral.isGroup_eq_false hq hentry hnumeric
  rw [Meaning.entry_of_not_mem hkey, hgroup, hcondition]
  rfl

/-! ### The fields are set -/

/-- The empty key is all digits too, but it is no number. -/
theorem all_isDecimalDigit_iff {key : String} :
    key.toList.all isDecimalDigit = true ↔ key = "" ∨ isNumericKey key = true := by
  unfold isNumericKey
  by_cases hempty : key = ""
  · exact iff_of_true (by rw [hempty]; rfl) (Or.inl hempty)
  · simp [hempty]

theorem Condition.pins_value_iff {v pinned : Value} :
    (Condition.value v).Pins pinned ↔
      v.IsLiteral ∧ v = pinned ∨ v = .document [("$eq", pinned)] := by
  constructor
  · intro hpins
    cases hpins with
    | literal hliteral => exact Or.inl ⟨hliteral, rfl⟩
    | equal _ => exact Or.inr rfl
  · rintro (⟨hliteral, rfl⟩ | rfl)
    · exact .literal hliteral
    · exact .equal pinned

/-- A value is pinned under a key that names a field, unless it is a document
and all of the key is digits. -/
theorem pinnedValue?_eq_some_iff {key : String} {v pinned : Value} :
    pinnedValue? key v = some pinned ↔ Document.isOperatorKey key = false ∧
      ¬ (key.toList.all isDecimalDigit = true ∧ v.isDocument = true) ∧
      (Condition.value v).Pins pinned := by
  rw [Condition.pins_value_iff]
  unfold pinnedValue?
  split
  · rename_i hguard
    refine iff_of_false (fun hnone => nomatch hnone) fun ⟨hplain, hgroup, _⟩ => ?_
    rw [hplain, Bool.false_or, Bool.and_eq_true] at hguard
    exact hgroup hguard
  · rename_i hguard
    rw [Bool.not_eq_true, Bool.or_eq_false_iff, ← Bool.not_eq_true (_ && _), Bool.and_eq_true]
      at hguard
    rw [and_iff_right hguard.1, and_iff_right hguard.2]
    cases v with
    | document d =>
        by_cases hoperators : Document.hasOperatorKey d = true
        · simp only [hoperators, Bool.not_true, Bool.false_eq_true, if_false, Value.IsLiteral,
            reduceCtorEq, false_and, false_or, Value.document.injEq]
          split
          · simp
          · rename_i hsingle
            exact iff_of_false (fun hnone => nomatch hnone) (hsingle "$eq" pinned)
        · have hne : d ≠ [("$eq", pinned)] := by
            rintro rfl
            exact hoperators (hasOperatorKey_equal pinned)
          simp [Value.IsLiteral, hoperators, hne]
    | string s =>
        by_cases hs : s = "$exists" <;> simp [Value.IsLiteral, hs]
    | _ => simp [Value.IsLiteral]

theorem Filter.Literal.mem_pinnedFields [Pattern.Engine] {settings : Settings} {f : Filter}
    {q : Query} (h : f.Literal) (hq : f.compile settings = .ok q) {entry : String × Condition}
    (hentry : entry ∈ f) {v : Value} (hpins : entry.2.Pins v) :
    (entry.1, v) ∈ f.pinnedFields := by
  obtain ⟨key, c⟩ := entry
  obtain ⟨w, rfl⟩ : ∃ w, c = .value w := by
    cases hpins with
    | literal _ | equal _ => exact ⟨_, rfl⟩
  have hvalue : pinnedValue? key w = some v := by
    refine pinnedValue?_eq_some_iff.mpr
      ⟨(h.named _ hentry).2, fun ⟨hdigits, hdocument⟩ => ?_, hpins⟩
    rcases all_isDecimalDigit_iff.mp hdigits with hempty | hnumeric
    · exact (h.named _ hentry).1 hempty
    · exact Bool.false_ne_true ((h.isGroup_eq_false hq hentry hnumeric).symm.trans hdocument)
  exact List.mem_filterMap.mpr ⟨_, hentry, congrArg (Option.map (key, ·)) hvalue⟩

theorem Filter.Literal.diverging_pinnedFields {f : Filter} (h : f.Literal) :
    f.pinnedFields.Pairwise fun a b => Diverging a.1 b.1 := by
  refine List.pairwise_filterMap.mpr (h.diverging.imp ?_)
  intro a b hdiverging field hfield other hother
  obtain ⟨_, -, rfl⟩ := Option.map_eq_some_iff.mp hfield
  obtain ⟨_, -, rfl⟩ := Option.map_eq_some_iff.mp hother
  exact hdiverging

/-! ### No write is seen -/

section Shows

variable {f : Filter} {d changed : Document} {u : Update}

theorem Document.Shows.edits (h : d.Shows f) (hspares : u.SparesFields f)
    (hedits : Edits u.fields d changed) : changed.Shows f := by
  intro entry hentry v hpins
  refine hedits.resolve?_eq (fun field hfield => ?_) (h entry hentry v hpins)
  exact hspares field hfield entry hentry

/-- What an upsert makes of a literal filter shows it. -/
theorem Filter.Literal.shows_of_upsertDocument [Pattern.Engine] {settings : Settings} {q : Query}
    {ops : List (UpdateOperator × Document)} (hliteral : f.Literal)
    (hq : f.compile settings = .ok q) (hspares : (Update.operators ops).SparesFields f)
    (h : (Update.operators ops).upsertDocument f = .ok d) : d.Shows f := by
  obtain ⟨pinned, hpinned, hedits⟩ := Update.upsertDocument_operators h
  have hshows : pinned.Shows f := by
    intro entry hentry v hpins
    have hshadow : Document.shadows [] entry.1 = false := Bool.and_false _
    exact UpdateOperator.resolve?_of_apply_set hpinned hliteral.diverging_pinnedFields
      _ (hliteral.mem_pinnedFields hq hentry hpins) hshadow
  exact hshows.edits hspares hedits

/-- Nothing could be read under the identifier before there was one. -/
theorem Draft.resolve?_complete {draft : Draft} {key : String} {v : Value}
    (h : draft.document.resolve? key = some v) : draft.complete.2.resolve? key = some v := by
  unfold complete
  cases hid : draft.document.get? idField with
  | some id => exact h
  | none =>
      have hget : ∀ name, name ≠ idField →
          Document.get? ((idField, .objectId draft.fresh) :: draft.document) name =
            draft.document.get? name := fun name hname =>
        (Document.get?_cons ..).trans (if_neg hname)
      have hkey : key ≠ idField := by
        rintro rfl
        rw [Document.resolve?_idField, hid] at h
        cases h
      refine Document.resolve?_of_descend? (hget key hkey) ?_ h
      intro found hfound
      obtain ⟨first, rest, hsegments⟩ := exists_segments key
      rw [hsegments, Value.descend?, Value.child?] at hfound ⊢
      have hfirst : first ≠ idField := by
        rintro rfl
        rw [hid] at hfound
        cases hfound
      rwa [hget first hfirst]

theorem Document.Shows.complete {draft : Draft} (h : draft.document.Shows f) :
    draft.complete.2.Shows f :=
  fun entry hentry v hpins => Draft.resolve?_complete (h entry hentry v hpins)

end Shows

/-! ## Calls -/

/-- The call updates by the filter, and inserts a document where it finds
none. -/
inductive Action.Upserts (f : Filter) (spec : Document) : Action → Prop where
  | update (many : Bool) (fresh : ObjectId) : Upserts f spec (.update many f spec true fresh)
  | findOneAndUpdate {options : FindAndUpdateOptions} (h : options.upsert = true)
      (fresh : ObjectId) : Upserts f spec (.findOneAndUpdate f spec options fresh)

/-- Of a list in which only the last document satisfies the query, no other is
rewritten. -/
theorem Updated.rewrites_last {q : Query} {u : Update} {before after : List Document}
    {d : Document} (hbefore : ∀ x ∈ before, q.holds x = false)
    (h : List.Forall₂ (Updated.Rewrites q u) (before ++ [d]) after) :
    ∃ new, after = before ++ [new] ∧ Updated.Rewrites q u d new := by
  induction before generalizing after with
  | nil =>
      obtain ⟨new, rest, hnew, hrest, rfl⟩ := List.forall₂_cons_left_iff.mp h
      obtain rfl := List.forall₂_nil_left_iff.mp hrest
      exact ⟨new, rfl, hnew⟩
  | cons x before ih =>
      rw [List.forall_mem_cons] at hbefore
      obtain ⟨y, rest, hy, hrest, rfl⟩ := List.forall₂_cons_left_iff.mp h
      obtain ⟨new, rfl, hnew⟩ := ih hbefore.2 hrest
      have hkept : y = x := hy.resolve_right fun hholds =>
        Bool.false_ne_true (hbefore.1.symm.trans hholds.1)
      exact ⟨new, by rw [hkept, List.cons_append], hnew⟩

namespace Collection

variable {c : Collection} {f : Filter} {spec : Document} {u : Update} {q : Query} {a : Action}
  {answer : Answer} {d : Document}

/-- Either the call fails, or no document satisfies the filter and one is
inserted, or some do and are updated at most. -/
theorem upserts_cases [Pattern.Engine] (ha : a.Upserts f spec) (hu : Update.parse spec = .ok u)
    (hq : c.compile f = .ok q) :
    (∃ e, c.perform a = (c, .error e)) ∨
      ((∀ d ∈ c.documents, q.holds d = false) ∧ ∃ draft : Draft,
        u.upsertDocument f = .ok draft.document ∧
          (c.perform a).1 = { c with documents := c.documents ++ [draft.complete.2] }) ∨
      (¬ (∀ d ∈ c.documents, q.holds d = false) ∧ ∃ documents,
        List.Forall₂ (Updated.Rewrites q u) c.documents documents ∧
          (c.perform a).1 = { c with documents := documents }) := by
  have hinserted : ∀ {fresh next id}, c.upsert f u fresh = .ok (next, id) → ∃ draft : Draft,
      u.upsertDocument f = .ok draft.document ∧
        next = { c with documents := c.documents ++ [draft.complete.2] } := by
    intro fresh next id hnext
    obtain ⟨d, hd, hadd⟩ := upsert_eq_ok_iff.mp hnext
    exact ⟨⟨fresh, d⟩, hd, (add_eq_ok_iff.mp hadd).2.1⟩
  cases ha with
  | update many fresh =>
      rw [perform]
      rcases c.update_cases many f spec true fresh with ⟨e, h⟩ |
        ⟨u', q', updated, hu', hq', hupdated, hcase⟩
      · rw [h]
        exact Or.inl ⟨e, rfl⟩
      · obtain rfl := Except.ok.inj (hu.symm.trans hu')
        obtain rfl := Except.ok.inj (hq.symm.trans hq')
        rw [updateMatching_matched_eq_zero_iff hupdated] at hcase
        right
        rcases hcase with ⟨hnone, -, next, id, hnext, h⟩ | ⟨hsome, h⟩
        · rw [h]
          exact Or.inl ⟨hnone, hinserted hnext⟩
        · rw [h]
          exact Or.inr ⟨fun hnone => hsome ⟨hnone, rfl⟩, _, updateMatching_forall₂ hupdated, rfl⟩
  | @findOneAndUpdate options hupsert fresh =>
      rw [perform]
      rcases c.findOneAndUpdate_cases f spec options fresh with ⟨e, h⟩ |
        ⟨u', q', hu', hq', hcase⟩
      · rw [h]
        exact Or.inl ⟨e, rfl⟩
      · obtain rfl := Except.ok.inj (hu.symm.trans hu')
        obtain rfl := Except.ok.inj (hq.symm.trans hq')
        right
        rcases hcase with ⟨hnone, -, next, id, hnext, h⟩ | ⟨-, hoff, -⟩ |
          ⟨old, i, others, updated, differs, hfirst, happly, h⟩
        · rw [h]
          exact Or.inl ⟨candidates_eq_nil_iff.mp hnone, hinserted hnext⟩
        · rw [hupsert] at hoff
          cases hoff
        · rw [h]
          have hmem : (old, i) ∈ c.candidates q options.sort := by simp [hfirst]
          obtain ⟨hold, hholds⟩ := mem_candidates_iff.mp hmem
          refine Or.inr ⟨fun hnone => ?_, _, ?_, rfl⟩
          · have hempty : c.candidates q options.sort = [] := candidates_eq_nil_iff.mpr hnone
            rw [hfirst] at hempty
            cases hempty
          · exact forall₂_set (fun _ => Or.inl rfl) hold (Or.inr ⟨hholds, differs, happly⟩)

/-- The documents that do not satisfy a filter, and behind them one that shows
it. -/
def ShowsLast [Pattern.Engine] (f : Filter) (q : Query) (before : List Document) (c : Collection) :
    Prop :=
  c.compile f = .ok q ∧ (∀ d ∈ before, q.holds d = false) ∧
    ∃ d : Document, c.documents = before ++ [d] ∧ d.Shows f

/-- The first call that goes through inserts a document that shows the
filter. -/
theorem showsLast_of_upsert [Pattern.Engine] {ops : List (UpdateOperator × Document)}
    (hliteral : f.Literal) (ha : a.Upserts f spec) (hu : Update.parse spec = .ok (.operators ops))
    (hspares : (Update.operators ops).SparesFields f) (hq : c.compile f = .ok q)
    (hnone : ∀ d ∈ c.documents, q.holds d = false) (hcall : (c.perform a).2 = .ok answer) :
    ShowsLast f q c.documents (c.perform a).1 := by
  rcases upserts_cases ha hu hq with ⟨e, h⟩ | ⟨-, draft, hdraft, h⟩ | ⟨hsome, -⟩
  · rw [h] at hcall
    cases hcall
  · rw [h]
    have hshows : draft.document.Shows f := hliteral.shows_of_upsertDocument hq hspares hdraft
    exact ⟨hq, hnone, _, rfl, hshows.complete⟩
  · exact absurd hnone hsome

/-- Every later call leaves the document where it is, and it goes on showing
the filter. -/
theorem ShowsLast.upsert [Pattern.Engine] {before : List Document} (h : ShowsLast f q before c)
    (hf : f.WellFormed) (hliteral : f.Literal) (ha : a.Upserts f spec)
    (hu : Update.parse spec = .ok u) (hspares : u.SparesFields f) :
    ShowsLast f q before (c.perform a).1 := by
  obtain ⟨hq, hbefore, d, hdocuments, hshows⟩ := h
  have hd : q.holds d = true := Filter.holds_of_shows hf hliteral hq hshows
  rcases upserts_cases ha hu hq with ⟨e, h⟩ | ⟨hnone, -⟩ | ⟨-, documents, hrewrites, h⟩
  · rw [h]
    exact ⟨hq, hbefore, d, hdocuments, hshows⟩
  · have hmiss : q.holds d = false := hnone d (by simp [hdocuments])
    exact absurd (hmiss.symm.trans hd) Bool.false_ne_true
  · rw [h]
    rw [hdocuments] at hrewrites
    obtain ⟨new, rfl, hnew⟩ := Updated.rewrites_last hbefore hrewrites
    refine ⟨hq, hbefore, new, rfl, ?_⟩
    rcases hnew with rfl | ⟨-, differs, happly⟩
    · exact hshows
    · exact hshows.edits hspares (Update.edits_apply happly)

/-- The filter finds the document, and no other. -/
theorem ShowsLast.found [Pattern.Engine] {before : List Document} (h : ShowsLast f q before c)
    (hf : f.WellFormed) (hliteral : f.Literal) :
    ∃ d, c.documents = before ++ [d] ∧ c.count f = .ok 1 ∧
      (c.find f none).2.map (·.documents) = .ok [d] := by
  obtain ⟨hq, hbefore, d, hdocuments, hshows⟩ := h
  have hd : q.holds d = true := Filter.holds_of_shows hf hliteral hq hshows
  have hselect : q.select c.documents = [d] := by
    have hothers : before.filter q.holds = [] := by simpa using hbefore
    rw [hdocuments, Query.select, List.filter_append, hothers, List.filter_singleton, hd]
    rfl
  refine ⟨d, hdocuments, ?_, ?_⟩
  · rw [count_of_compile hq, hselect]
    rfl
  · rw [find_of_compile hq, hselect]

/-- Where a literal filter finds nothing, a call that updates by it or inserts
puts one document at the end. However often such calls are made from there on,
this document is the one that the filter finds. -/
theorem upserts_once [Pattern.Engine] (hf : f.WellFormed) (hliteral : f.Literal)
    {ops : List (UpdateOperator × Document)} (hu : Update.parse spec = .ok (.operators ops))
    (hspares : (Update.operators ops).SparesFields f) (ha : a.Upserts f spec)
    (hnone : c.count f = .ok 0) (hcall : (c.perform a).2 = .ok answer) {later : Collection}
    (run : Reachable (fun _ a => a.Upserts f spec) (c.perform a).1 later) :
    ∃ d, later.documents = c.documents ++ [d] ∧ later.count f = .ok 1 ∧
      (later.find f none).2.map (·.documents) = .ok [d] := by
  obtain ⟨q, hq, hnone⟩ := count_eq_zero_iff.mp hnone
  have hlast : ShowsLast f q c.documents later := by
    refine run.invariant ?_ fun c a h ha => h.upsert hf hliteral ha hu hspares
    exact showsLast_of_upsert hliteral ha hu hspares hq hnone hcall
  exact hlast.found hf hliteral

/-- Called a second time, the upsert counts another login. -/
theorem upserts_once_logins :
    let f : Filter := [("email", .value (.string "ada@example.org")),
      ("address.city", .value (.document [("$eq", .string "Bern")]))]
    let spec : Document := [("$set", .document [("address.zip", .int32 3011)]),
      ("$inc", .document [("logins", .int32 1)])]
    let fresh : ObjectId := ⟨List.replicate 12 0, rfl⟩
    let c : Collection := { new (.ofName "people") with documents := [[("email", .null)]] }
    let first := (c.perform (.update false f spec true fresh)).1
    let second := (first.perform (.findOneAndUpdate f spec ⟨none, true, true⟩ fresh)).1
    ∃ d, second.documents = c.documents ++ [d] ∧ second.count f = .ok 1 ∧
      (second.find f none).2.map (·.documents) = .ok [d] := by
  intro f spec fresh c first second
  have hf : f.WellFormed := by
    intro key v hmem
    simp only [f, List.mem_cons, List.not_mem_nil, or_false, Prod.mk.injEq,
      Condition.value.injEq] at hmem
    rcases hmem with ⟨-, rfl⟩ | ⟨-, rfl⟩
    · trivial
    · exact ⟨by decide, trivial, trivial⟩
  have hliteral : f.Literal := by
    have hfree : ∀ s, (Value.string s).NaNFree := fun s => .of_scalar (fun d h => nomatch h) rfl
    have hemail : "ada@example.org" ≠ "$exists" := by decide
    refine ⟨?_, ?_, ?_, by decide⟩
    · simp only [f, List.forall_mem_cons]
      exact ⟨⟨_, .literal hemail, hfree _⟩, ⟨_, .equal _, hfree _⟩, List.forall_mem_nil _⟩
    · simp only [f, List.forall_mem_cons]
      exact ⟨by decide, by decide, List.forall_mem_nil _⟩
    · simp only [f, List.forall_mem_cons]
      exact ⟨fun _ _ h => absurd h (by decide), fun _ _ h => absurd h (by decide),
        List.forall_mem_nil _⟩
  have hspares : (Update.operators [(.set, [("address.zip", .int32 3011)]),
      (.increment, [("logins", .int32 1)])]).SparesFields f := by
    simp only [Update.SparesFields, Update.fields, f, List.flatMap_cons, List.flatMap_nil,
      List.append_nil, List.singleton_append, List.forall_mem_cons]
    exact ⟨⟨by decide, by decide, List.forall_mem_nil _⟩,
      ⟨by decide, by decide, List.forall_mem_nil _⟩, List.forall_mem_nil _⟩
  exact upserts_once hf hliteral (c := c) (a := .update false f spec true fresh) rfl hspares
    (.update false fresh) rfl rfl (.call .start (.findOneAndUpdate rfl fresh))

end Collection

end DocStore
