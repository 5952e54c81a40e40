import DocStore.Proofs.Reflexivity
import DocStore.Proofs.Runs

/-!
# An update position by position

An update is for some of the positions in the store: those of the documents
that satisfy its filter, or the first of them (`Query.positions`). It goes
through if it can be applied to each of these documents, and then it has put
the result in the place of each and left all other places alone
(`Updated.Pointwise`). The pass over the documents is followed one document at
a time: a document that is updated adds a position, and any other one only
moves the positions on by one (`Updated.Pointwise.hit`, `Updated.Pointwise.miss`).

The answer counts the positions, and among them those whose document is not
the same as before. For the document that an update leaves as it is this takes
that it is the same as itself, which no document with a NaN in it is; such a
one always counts as changed (`Update.differs_of_apply`).
-/

namespace DocStore

/-! ## Positions -/

/-- The positions of the documents that satisfy the query: of all of them, or
of the first. -/
def Query.positions (q : Query) (many : Bool) (documents : List Document) : List Nat :=
  let found := documents.findIdxs q.holds
  if many then found else found.take 1

section Positions

variable {q : Query} {many : Bool} {d : Document} {rest documents : List Document}

theorem Query.positions_hit (h : q.holds d = true) :
    q.positions many (d :: rest) =
      0 :: (if many then q.positions many rest else []).map (· + 1) := by
  have htail : rest.findIdxs q.holds 1 = (rest.findIdxs q.holds).map (· + 1) :=
    List.findIdxs_start
  cases many <;> simp [positions, h, htail]

theorem Query.positions_miss (h : q.holds d = false) :
    q.positions many (d :: rest) = (q.positions many rest).map (· + 1) := by
  have htail : rest.findIdxs q.holds 1 = (rest.findIdxs q.holds).map (· + 1) :=
    List.findIdxs_start
  cases many <;> simp [positions, h, htail, List.map_take]

theorem Query.positions_eq_nil_iff :
    q.positions many documents = [] ↔ ∀ d ∈ documents, q.holds d = false := by
  have hfound : documents.findIdxs q.holds = [] ↔ ∀ d ∈ documents, q.holds d = false :=
    List.findIdxs_eq_nil_iff
  cases many <;> simp [positions, hfound]

end Positions

/-! ## What stands where -/

/-- The new list has the updated document in each of the positions, and is the
old one everywhere else. -/
structure Updated.Pointwise (u : Update) (positions : List Nat) (old new : List Document) :
    Prop where
  length_eq : new.length = old.length
  updated : ∀ i ∈ positions, ∃ d updated differs,
    old[i]? = some d ∧ u.apply d = .ok (updated, differs) ∧ new[i]? = some updated
  kept : ∀ i, i ∉ positions → new[i]? = old[i]?

/-- The documents in the position are not the same. -/
def differsAt (old new : List Document) (i : Nat) : Bool :=
  match old[i]?, new[i]? with
  | some d, some updated => !updated.same d
  | _, _ => false

namespace Updated.Pointwise

variable {u : Update} {positions : List Nat} {d updated : Document} {differs : Bool}
  {old new : List Document}

theorem refl (documents : List Document) : Pointwise u [] documents documents :=
  ⟨rfl, List.forall_mem_nil _, fun _ _ => rfl⟩

theorem hit (h : Pointwise u positions old new) (happly : u.apply d = .ok (updated, differs)) :
    Pointwise u (0 :: positions.map (· + 1)) (d :: old) (updated :: new) := by
  refine ⟨congrArg (· + 1) h.length_eq, ?_, ?_⟩
  · refine List.forall_mem_cons.mpr ⟨⟨d, updated, differs, rfl, happly, rfl⟩, ?_⟩
    exact List.forall_mem_map.mpr h.updated
  · intro i hi
    rw [List.mem_cons, not_or] at hi
    cases i with
    | zero => exact absurd rfl hi.1
    | succ i => exact h.kept i fun hmem => hi.2 (List.mem_map.mpr ⟨i, hmem, rfl⟩)

theorem miss (h : Pointwise u positions old new) (d : Document) :
    Pointwise u (positions.map (· + 1)) (d :: old) (d :: new) := by
  refine ⟨congrArg (· + 1) h.length_eq, List.forall_mem_map.mpr h.updated, fun i hi => ?_⟩
  cases i with
  | zero => rfl
  | succ i => exact h.kept i fun hmem => hi (List.mem_map.mpr ⟨i, hmem, rfl⟩)

end Updated.Pointwise

/-- Moving all positions on by one moves what differs on with them. -/
theorem countP_differsAt_cons (d updated : Document) (old new : List Document)
    (positions : List Nat) :
    (positions.map (· + 1)).countP (differsAt (d :: old) (updated :: new)) =
      positions.countP (differsAt old new) := by
  rw [List.countP_map]
  rfl

/-! ## Changes -/

/-- An update says that it has changed a document just if the document is not
the same as before. -/
theorem Update.differs_of_apply {u : Update} {d updated : Document} {differs : Bool}
    (hu : u.WellFormed) (hd : d.WellFormed) (h : u.apply d = .ok (updated, differs)) :
    differs = !updated.same d := by
  cases u with
  | replacement r => cases h
  | operators ops =>
      rw [apply_operators] at h
      obtain ⟨written, hwritten, h⟩ := map_eq_ok_iff.mp h
      split at h
      · rename_i hsame
        obtain ⟨rfl, rfl⟩ := Prod.mk.inj h
        have hwellFormed : written.WellFormed :=
          (edits_applyOperators hwritten).wellFormed hu.fields hd
        have hfree : (Value.document d).NaNFree :=
          .of_same (a := .document written) hwellFormed hd hsame
        have hself : d.same d = true := Value.same_self hd hfree
        rw [hself]
        rfl
      · rename_i hsame
        obtain ⟨rfl, rfl⟩ := Prod.mk.inj h
        rw [Bool.not_eq_true] at hsame
        rw [hsame]
        rfl

/-! ## The pass over the documents -/

section Pass

variable {q : Query} {u : Update} {many : Bool} {d : Document} {rest documents : List Document}
  {after : Updated}

/-- What comes after a document that is updated: it is updated too, or left as
it is. -/
def updateOthers (q : Query) (u : Update) (many : Bool) (rest : List Document) :
    Except Error Updated :=
  if many then updateMatching q u many rest else .ok ⟨rest, 0, 0⟩

theorem updateMatching_hit (h : q.holds d = true) :
    updateMatching q u many (d :: rest) = .ok after ↔
      ∃ updated differs tail, u.apply d = .ok (updated, differs) ∧
        updateOthers q u many rest = .ok tail ∧
        after = ⟨updated :: tail.documents, tail.matched + 1, tail.modified + differs.toNat⟩ := by
  have hstep : updateMatching q u many (d :: rest) =
      u.apply d >>= fun result => updateOthers q u many rest >>= fun tail =>
        pure ⟨result.1 :: tail.documents, tail.matched + 1, tail.modified + result.2.toNat⟩ := by
    rw [updateMatching, if_pos h]
    cases many <;> rfl
  rw [hstep]
  constructor
  · intro hafter
    obtain ⟨⟨updated, differs⟩, happly, hafter⟩ := bind_eq_ok_iff.mp hafter
    obtain ⟨tail, htail, hafter⟩ := bind_eq_ok_iff.mp hafter
    exact ⟨updated, differs, tail, happly, htail, (Except.ok.inj hafter).symm⟩
  · rintro ⟨updated, differs, tail, happly, htail, rfl⟩
    rw [happly, ok_bind, htail]
    rfl

theorem updateMatching_miss (h : q.holds d = false) :
    updateMatching q u many (d :: rest) = .ok after ↔
      ∃ tail, updateMatching q u many rest = .ok tail ∧
        after = { tail with documents := d :: tail.documents } := by
  rw [updateMatching, if_neg (Bool.eq_false_iff.mp h), bind_eq_ok_iff]
  refine exists_congr fun tail => and_congr_right fun _ => ?_
  exact ⟨fun hafter => (Except.ok.inj hafter).symm, fun hafter => congrArg _ hafter.symm⟩

theorem updateMatching_of_no_match (hnone : ∀ d ∈ documents, q.holds d = false) :
    updateMatching q u many documents = .ok ⟨documents, 0, 0⟩ := by
  induction documents with
  | nil => rfl
  | cons d rest ih =>
      rw [List.forall_mem_cons] at hnone
      exact (updateMatching_miss hnone.1).mpr ⟨_, ih hnone.2, rfl⟩

/-- The pass goes through just if the update does for each of its documents. -/
theorem updateMatching_isOk_iff :
    (∃ after, updateMatching q u many documents = .ok after) ↔
      ∀ i ∈ q.positions many documents, ∀ d, documents[i]? = some d →
        ∃ result, u.apply d = .ok result := by
  induction documents with
  | nil => cases many <;> simp [updateMatching, Query.positions]
  | cons d rest ih =>
      cases hholds : q.holds d with
      | true =>
          have hothers : (∃ tail, updateOthers q u many rest = .ok tail) ↔
              ∀ i ∈ if many then q.positions many rest else [], ∀ d, rest[i]? = some d →
                ∃ result, u.apply d = .ok result := by
            cases many with
            | true => exact ih
            | false => exact ⟨fun _ => List.forall_mem_nil _, fun _ => ⟨_, rfl⟩⟩
          rw [Query.positions_hit hholds, List.forall_mem_cons, List.forall_mem_map]
          simp only [List.getElem?_cons_succ, ← hothers]
          constructor
          · rintro ⟨after, hafter⟩
            obtain ⟨updated, differs, tail, happly, htail, -⟩ :=
              (updateMatching_hit hholds).mp hafter
            refine ⟨fun e he => ?_, tail, htail⟩
            obtain rfl := Option.some.inj he
            exact ⟨_, happly⟩
          · rintro ⟨hfirst, tail, htail⟩
            obtain ⟨⟨updated, differs⟩, happly⟩ := hfirst d rfl
            exact ⟨_, (updateMatching_hit hholds).mpr ⟨updated, differs, tail, happly, htail, rfl⟩⟩
      | false =>
          rw [Query.positions_miss hholds, List.forall_mem_map]
          simp only [List.getElem?_cons_succ, ← ih]
          constructor
          · rintro ⟨after, hafter⟩
            obtain ⟨tail, htail, -⟩ := (updateMatching_miss hholds).mp hafter
            exact ⟨tail, htail⟩
          · rintro ⟨tail, htail⟩
            exact ⟨_, (updateMatching_miss hholds).mpr ⟨tail, htail, rfl⟩⟩

theorem updateMatching_pointwise (h : updateMatching q u many documents = .ok after) :
    Updated.Pointwise u (q.positions many documents) documents after.documents ∧
      after.matched = (q.positions many documents).length := by
  induction documents generalizing after with
  | nil =>
      obtain rfl := Except.ok.inj h
      cases many <;> exact ⟨.refl [], rfl⟩
  | cons d rest ih =>
      cases hholds : q.holds d with
      | true =>
          obtain ⟨updated, differs, tail, happly, htail, rfl⟩ := (updateMatching_hit hholds).mp h
          have hothers : Updated.Pointwise u (if many then q.positions many rest else []) rest
              tail.documents ∧
                tail.matched = (if many then q.positions many rest else []).length := by
            cases many with
            | true => exact ih htail
            | false => exact Except.ok.inj htail ▸ ⟨.refl rest, rfl⟩
          rw [Query.positions_hit hholds, List.length_cons, List.length_map]
          exact ⟨hothers.1.hit happly, congrArg (· + 1) hothers.2⟩
      | false =>
          obtain ⟨tail, htail, rfl⟩ := (updateMatching_miss hholds).mp h
          obtain ⟨hpointwise, hmatched⟩ := ih htail
          rw [Query.positions_miss hholds, List.length_map]
          exact ⟨hpointwise.miss d, hmatched⟩

theorem updateMatching_matched_eq_zero_iff (h : updateMatching q u many documents = .ok after) :
    after.matched = 0 ↔ ∀ d ∈ documents, q.holds d = false := by
  rw [(updateMatching_pointwise h).2, List.length_eq_zero_iff, Query.positions_eq_nil_iff]

/-- The documents that count as changed are those that are not the same as
before. -/
theorem updateMatching_modified (hu : u.WellFormed) (hdocuments : ∀ d ∈ documents, d.WellFormed)
    (h : updateMatching q u many documents = .ok after) :
    after.modified =
      (q.positions many documents).countP (differsAt documents after.documents) := by
  induction documents generalizing after with
  | nil =>
      obtain rfl := Except.ok.inj h
      cases many <;> rfl
  | cons d rest ih =>
      rw [List.forall_mem_cons] at hdocuments
      cases hholds : q.holds d with
      | true =>
          obtain ⟨updated, differs, tail, happly, htail, rfl⟩ := (updateMatching_hit hholds).mp h
          have hothers : tail.modified = (if many then q.positions many rest else []).countP
              (differsAt rest tail.documents) := by
            cases many with
            | true => exact ih hdocuments.2 htail
            | false => exact Except.ok.inj htail ▸ rfl
          have hfirst : differsAt (d :: rest) (updated :: tail.documents) 0 = differs :=
            (Update.differs_of_apply hu hdocuments.1 happly).symm
          rw [Query.positions_hit hholds, List.countP_cons, countP_differsAt_cons, ← hothers,
            hfirst]
          cases differs <;> rfl
      | false =>
          obtain ⟨tail, htail, rfl⟩ := (updateMatching_miss hholds).mp h
          rw [Query.positions_miss hholds, countP_differsAt_cons]
          exact ih hdocuments.2 htail

end Pass

/-! ## Updates -/

namespace Collection

variable {c : Collection} {many : Bool} {f : Filter} {spec : Document} {u : Update} {q : Query}

theorem update_of_match [Pattern.Engine] (hu : Update.parse spec = .ok u) (hq : c.compile f = .ok q)
    (hsome : q.positions many c.documents ≠ []) (upsert : Bool) (fresh : ObjectId) :
    (∃ e, updateMatching q u many c.documents = .error e ∧
        c.update many f spec upsert fresh = (c, .error e)) ∨
      ∃ after, updateMatching q u many c.documents = .ok after ∧
        c.update many f spec upsert fresh = ({ c with documents := after.documents },
          .ok ⟨after.matched, after.modified, []⟩) := by
  rw [update, hu, hq, ok_bind, ok_bind]
  cases hafter : updateMatching q u many c.documents with
  | error e => exact Or.inl ⟨e, rfl, rfl⟩
  | ok after =>
      have hmatched : after.matched ≠ 0 := by
        rwa [ne_eq, updateMatching_matched_eq_zero_iff hafter, ← Query.positions_eq_nil_iff]
      rw [ok_bind, decide_eq_false hmatched, Bool.false_and]
      exact Or.inr ⟨after, rfl, rfl⟩

theorem update_of_no_match [Pattern.Engine] (hu : Update.parse spec = .ok u)
    (hq : c.compile f = .ok q) (hnone : ∀ d ∈ c.documents, q.holds d = false) (upsert : Bool)
    (fresh : ObjectId) :
    c.update many f spec upsert fresh =
      c.settle (if upsert then (c.upsert f u fresh).map fun (next, id) => (next, ⟨0, 0, [id]⟩)
        else .ok (c, ⟨0, 0, []⟩)) := by
  rw [update, hu, hq, ok_bind, ok_bind, updateMatching_of_no_match hnone, ok_bind]
  cases upsert with
  | false => rfl
  | true =>
      cases c.upsert f u fresh <;> rfl

/-- An update is a map over the positions that it is for. It goes through just
if it can be applied to each of their documents, and the answer counts the
positions and the changes. Where no document satisfies the filter nothing
happens, or a single document goes to the end. -/
theorem update_pointwise [Pattern.Engine] (hu : Update.parse spec = .ok u)
    (hq : c.compile f = .ok q) (hspec : spec.WellFormed) (hc : ∀ d ∈ c.documents, d.WellFormed)
    (many upsert : Bool) (fresh : ObjectId) :
    let positions := q.positions many c.documents
    let call := c.update many f spec upsert fresh
    (positions ≠ [] →
      ((∃ r, call.2 = .ok r) ↔ ∀ i ∈ positions, ∀ d, c.documents[i]? = some d →
        ∃ result, u.apply d = .ok result) ∧
      ∀ r, call.2 = .ok r → Updated.Pointwise u positions c.documents call.1.documents ∧
        r.matched = positions.length ∧ r.upserted = [] ∧
        r.modified = positions.countP (differsAt c.documents call.1.documents) ∧
        r.modified ≤ r.matched) ∧
    (positions = [] → upsert = false → call = (c, .ok ⟨0, 0, []⟩)) ∧
    (positions = [] → upsert = true → ∀ r, call.2 = .ok r →
      ∃ d id, call.1.documents = c.documents ++ [d] ∧ d.get? idField = some id ∧
        r = ⟨0, 0, [id]⟩) := by
  intro positions call
  refine ⟨fun hsome => ?_, fun hnone hupsert => ?_, fun hnone hupsert r hr => ?_⟩
  · rw [← updateMatching_isOk_iff]
    rcases update_of_match hu hq hsome upsert fresh with
      ⟨e, hpass, hcall⟩ | ⟨after, hpass, hcall⟩
    · refine ⟨?_, fun r hr => ?_⟩
      · constructor
        · rintro ⟨r, hr⟩
          cases (congrArg Prod.snd hcall).symm.trans hr
        · rintro ⟨after, hafter⟩
          cases hpass.symm.trans hafter
      · cases (congrArg Prod.snd hcall).symm.trans hr
    · refine ⟨⟨fun _ => ⟨after, hpass⟩, fun _ => ⟨_, congrArg Prod.snd hcall⟩⟩, fun r hr => ?_⟩
      obtain rfl := Except.ok.inj ((congrArg Prod.snd hcall).symm.trans hr)
      obtain ⟨hpointwise, hmatched⟩ := updateMatching_pointwise hpass
      have hmodified := updateMatching_modified (Update.parse_wellFormed hspec hu) hc hpass
      have hdocuments : call.1.documents = after.documents :=
        congrArg (·.1.documents) hcall
      rw [hdocuments]
      refine ⟨hpointwise, hmatched, rfl, hmodified, ?_⟩
      calc after.modified
          = positions.countP (differsAt c.documents after.documents) := hmodified
        _ ≤ positions.length := List.countP_le_length
        _ = after.matched := hmatched.symm
  · have hcall : call = _ :=
      update_of_no_match hu hq (Query.positions_eq_nil_iff.mp hnone) upsert fresh
    rw [hcall, hupsert]
    rfl
  · have hcall : call = _ :=
      update_of_no_match hu hq (Query.positions_eq_nil_iff.mp hnone) upsert fresh
    rw [hcall, hupsert, if_pos rfl] at hr ⊢
    cases hnext : c.upsert f u fresh with
    | error e =>
        rw [hnext] at hr
        cases hr
    | ok result =>
        obtain ⟨next, id⟩ := result
        rw [hnext] at hr
        obtain ⟨d, -, hadd⟩ := upsert_eq_ok_iff.mp hnext
        obtain ⟨-, rfl, rfl⟩ := add_eq_ok_iff.mp hadd
        exact ⟨_, _, rfl, Draft.get?_complete _, (Except.ok.inj hr).symm⟩

/-- The first and the last of three documents are updated, and the last comes
out as it was. -/
theorem update_pointwise_around :
    let c : Collection := { new (.ofName "robots") with
      documents :=
        [[("n", .int32 5)], [("n", .int32 4)], [("n", .int32 5), ("on", .boolean true)]] }
    let call := c.update true [("n", .value (.int32 5))]
      [("$set", .document [("on", .boolean true)])] false ⟨List.replicate 12 0, rfl⟩
    ∃ r, call.2 = .ok r ∧ r.matched = 2 ∧ r.modified = 1 ∧ r.upserted = [] ∧
      call.1.documents[1]? = c.documents[1]? := by
  intro c call
  have hspec : Document.WellFormed [("$set", .document [("on", .boolean true)])] :=
    ⟨by decide, ⟨by decide, trivial, trivial⟩, trivial⟩
  have hc : ∀ d ∈ c.documents, d.WellFormed := by
    simp only [c, List.forall_mem_cons]
    exact ⟨⟨by decide, trivial, trivial⟩, ⟨by decide, trivial, trivial⟩,
      ⟨by decide, trivial, trivial, trivial⟩, List.forall_mem_nil _⟩
  obtain ⟨hmatch, -⟩ := update_pointwise (c := c) (f := [("n", .value (.int32 5))])
    (u := .operators [(.set, [("on", .boolean true)])]) rfl rfl hspec hc true false
    ⟨List.replicate 12 0, rfl⟩
  obtain ⟨r, hr⟩ : ∃ r, call.2 = .ok r := ⟨_, rfl⟩
  obtain ⟨hpointwise, hmatched, hupserted, hmodified, -⟩ := (hmatch (by decide)).2 r hr
  exact ⟨r, hr, hmatched, hmodified, hupserted, hpointwise.kept 1 (by decide)⟩

end Collection

end DocStore
