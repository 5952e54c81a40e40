import DocStore.Proofs.Selection
import DocStore.Proofs.Sorting

/-!
# Updating one document and answering it

`updateOne` and `findOneAndUpdate` are two ways to the same end: the first
document that satisfies the filter is updated where it stands, and if there is
none, one may be inserted. They differ in what they answer, and in that the
second can be told which of the documents is to come first.

Without a sort the two leave the same collection and fail with the same errors,
and the answer is the document that was updated or inserted
(`UpdatesAt`). With a sort, the document is the one that `findOne` answers
under the same sort: the first of the least (`IsFirstLeast`). The main
statement is `Collection.findOneAndUpdate_agrees`.
-/

namespace DocStore

/-! ## The first document that satisfies a query -/

section First

variable {q : Query} {u : Update} {d old : Document} {before rest documents : List Document}

/-- Either no document satisfies the query, or they can be cut before the first
that does. -/
theorem Query.split_first (q : Query) (documents : List Document) :
    (∀ d ∈ documents, q.holds d = false) ∨
      ∃ before old rest, documents = before ++ old :: rest ∧
        (∀ d ∈ before, q.holds d = false) ∧ q.holds old = true := by
  cases hfound : documents.find? q.holds with
  | none =>
      left
      intro d hd
      simpa using List.find?_eq_none.mp hfound d hd
  | some old =>
      right
      obtain ⟨hholds, before, rest, hsplit, hbefore⟩ := List.find?_eq_some_iff_append.mp hfound
      exact ⟨before, old, rest, hsplit, fun d hd => by simpa using hbefore d hd, hholds⟩

theorem updateMatching_first (hbefore : ∀ d ∈ before, q.holds d = false)
    (hold : q.holds old = true) :
    updateMatching q u false (before ++ old :: rest) =
      (u.apply old).map fun (new, differs) => ⟨before ++ new :: rest, 1, differs.toNat⟩ := by
  induction before with
  | nil =>
      rw [List.nil_append, updateMatching, if_pos hold]
      cases u.apply old with
      | error e => rfl
      | ok result => simp [Except.map]
  | cons d before ih =>
      rw [List.forall_mem_cons] at hbefore
      rw [List.cons_append, updateMatching, if_neg (Bool.eq_false_iff.mp hbefore.1),
        ih hbefore.2]
      cases u.apply old <;> rfl

theorem findIdx?_first {p : Document → Bool} (hbefore : ∀ d ∈ before, p d = false)
    (hold : p old = true) : (before ++ old :: rest).findIdx? p = some before.length := by
  have hnone : before.findIdx? p = none := List.findIdx?_eq_none_iff.mpr hbefore
  rw [List.findIdx?_append, hnone, List.findIdx?_cons, hold]
  simp

end First

namespace Collection

section Candidates

variable {c : Collection} {q : Query} {f : Filter} {spec : Document} {u : Update}
  {before rest : List Document} {old : Document} {i : Nat} {others : List (Document × Nat)}

theorem candidates_first (hdocuments : c.documents = before ++ old :: rest)
    (hbefore : ∀ d ∈ before, q.holds d = false) (hold : q.holds old = true) :
    ∃ others, c.candidates q none = (old, before.length) :: others := by
  have hnone : (before.zipIdx.filter fun candidate => q.holds candidate.1) = [] := by
    rw [List.filter_eq_nil_iff]
    rintro ⟨d, i⟩ hmem
    have hd : d ∈ before := List.mem_of_getElem? (List.mem_zipIdx_iff_getElem?.mp hmem)
    exact Bool.eq_false_iff.mp (hbefore d hd)
  refine ⟨(rest.zipIdx (before.length + 1)).filter fun candidate => q.holds candidate.1, ?_⟩
  rw [candidates, hdocuments, List.zipIdx_append, List.filter_append, hnone, List.zipIdx_cons,
    List.nil_append, Nat.zero_add]
  exact List.filter_cons_of_pos hold

/-- The candidates stand in the order of their positions. -/
theorem pairwise_candidates (c : Collection) (q : Query) :
    (c.candidates q none).Pairwise (·.2 < ·.2) := by
  have hpositions : c.documents.zipIdx.Pairwise (·.2 < ·.2) := by
    have hrange : (c.documents.zipIdx.map (·.2)).Pairwise (· < ·) := by
      rw [List.zipIdx_map_snd]
      exact List.pairwise_lt_range'
    exact List.pairwise_map.mp hrange
  exact hpositions.sublist List.filter_sublist

theorem candidates_map (c : Collection) (q : Query) :
    (c.candidates q none).map (·.1) = q.select c.documents := by
  have hfilter : c.candidates q none = c.documents.zipIdx.filter (q.holds ∘ Prod.fst) := rfl
  rw [hfilter, ← List.filter_map, List.zipIdx_map_fst, Query.select]

theorem candidates_some (c : Collection) (q : Query) (sort : Document) :
    c.candidates q (some sort) = sortBy sort (·.1) (c.candidates q none) := rfl

variable [Pattern.Engine]

/-- Under the same sort, `findOne` answers the first of the candidates. -/
theorem findOne_eq_candidate (hq : c.compile f = .ok q) (sort : Option Document)
    (typeMap : Option TypeMap) :
    (c.findOne f (some ⟨sort, none, none, typeMap⟩)).2 =
      .ok ((c.candidates q sort).head?.map (·.1)) := by
  have hsorted : FindOptions.apply ⟨sort, none, none, typeMap⟩ (q.select c.documents) =
      (c.candidates q sort).map (·.1) := by
    cases sort with
    | none => exact (c.candidates_map q).symm
    | some spec => rw [candidates_some, map_sortBy, candidates_map]; rfl
  rw [findOne, run, Option.getD_some, hq, ← List.head?_map, ← hsorted]
  rfl

/-! ## The two calls -/

theorem updateOne_of_candidate (hu : Update.parse spec = .ok u) (hq : c.compile f = .ok q)
    (hfirst : c.candidates q none = (old, i) :: others) (upsert : Bool) (fresh : ObjectId) :
    c.updateOne f spec upsert fresh = c.settle ((u.apply old).map fun (new, differs) =>
      ({ c with documents := c.documents.set i new }, ⟨1, differs.toNat, []⟩)) := by
  rcases q.split_first c.documents with hnone | ⟨before, d, rest, hdocuments, hbefore, hd⟩
  · have hnil : c.candidates q none = [] := candidates_eq_nil_iff.mpr hnone
    rw [hnil] at hfirst
    cases hfirst
  · obtain ⟨others', hsame⟩ := candidates_first hdocuments hbefore hd
    obtain ⟨⟨rfl, rfl⟩, -⟩ : (d = old ∧ before.length = i) ∧ others' = others := by
      simpa using hsame.symm.trans hfirst
    rw [updateOne, update, hu, hq, ok_bind, ok_bind, hdocuments, updateMatching_first hbefore hd]
    cases u.apply d with
    | error e => rfl
    | ok result => simp [Except.map, ok_bind, settle, pure, Except.pure]

theorem findOneAndUpdate_of_candidate (hu : Update.parse spec = .ok u)
    (hq : c.compile f = .ok q) {options : FindAndUpdateOptions}
    (hfirst : c.candidates q options.sort = (old, i) :: others) (fresh : ObjectId) :
    c.findOneAndUpdate f spec options fresh = c.settle ((u.apply old).map fun (new, _) =>
      ({ c with documents := c.documents.set i new },
        some (if options.returnAfter then new else old))) := by
  rw [findOneAndUpdate, hu, hq, ok_bind, ok_bind, hfirst]
  dsimp only
  cases u.apply old <;> rfl

theorem findOneAndUpdate_of_no_candidate (hu : Update.parse spec = .ok u)
    (hq : c.compile f = .ok q) {options : FindAndUpdateOptions}
    (hnone : c.candidates q options.sort = []) (fresh : ObjectId) :
    c.findOneAndUpdate f spec options fresh = c.settle (if options.upsert then
      (c.upsert f u fresh).map fun (next, _) =>
        (next, if options.returnAfter then next.documents.getLast? else none)
      else .ok (c, none)) := by
  rw [findOneAndUpdate, hu, hq, ok_bind, ok_bind, hnone]
  dsimp only
  split
  · cases c.upsert f u fresh <;> rfl
  · rfl

end Candidates

/-! ## What the calls agree on -/

section Agreement

variable {c : Collection} {f : Filter} {spec : Document}

/-- The document in position `i` has been updated, and nothing else has been
changed. The answer is this document, as it was or as it is now. -/
def UpdatesAt (c : Collection) (spec : Document) (i : Nat) (returnAfter : Bool)
    (next : Collection) (answer : Option Document) : Prop :=
  ∃ u old new differs, Update.parse spec = .ok u ∧ c.documents[i]? = some old ∧
    u.apply old = .ok (new, differs) ∧ next = { c with documents := c.documents.set i new } ∧
    answer = some (if returnAfter then new else old)

/-- A document has been put at the end. Before that there was none to be
answered. -/
def InsertsOne (c : Collection) (returnAfter : Bool) (next : Collection)
    (answer : Option Document) : Prop :=
  ∃ d, next = { c with documents := c.documents ++ [d] } ∧
    answer = if returnAfter then some d else none

/-- Of the documents that the filter selects, the one in position `i` is not
greater than any other, and less than all that stand before it. -/
def IsFirstLeast [Pattern.Engine] (c : Collection) (f : Filter) (sort : Document) (i : Nat) :
    Prop :=
  ∃ old, c.documents[i]? = some old ∧ f.meaning c.settings.compiler old = true ∧
    ∀ j d, c.documents[j]? = some d → f.meaning c.settings.compiler d = true →
      sortOrder sort old d ≠ .gt ∧ (j < i → sortOrder sort d old = .gt)

theorem insertsOne_of_upsert {u : Update} {fresh : ObjectId} {next : Collection} {id : Value}
    (h : c.upsert f u fresh = .ok (next, id)) (returnAfter : Bool) :
    c.InsertsOne returnAfter next (if returnAfter then next.documents.getLast? else none) := by
  obtain ⟨d, -, hadd⟩ := upsert_eq_ok_iff.mp h
  obtain ⟨-, rfl, -⟩ := add_eq_ok_iff.mp hadd
  exact ⟨_, rfl, by rw [List.getLast?_concat]⟩

/-- Calls that fail in the same way agree. -/
theorem agree_of_error {one : Collection × Except Error UpdateResult}
    {found : Collection × Except Error (Option Document)} {P : Option Document → Prop} {e : Error}
    (hone : one = (c, .error e)) (hfound : found = (c, .error e)) :
    found.1 = one.1 ∧ (∀ e, found.2 = .error e ↔ one.2 = .error e) ∧
      ∀ answer, found.2 = .ok answer → P answer := by
  subst hone hfound
  refine ⟨rfl, fun e' => by simp, fun answer hanswer => ?_⟩
  cases hanswer

/-- Without a sort, the document that comes first in the store is updated by
both calls. -/
theorem updateOne_agrees [Pattern.Engine] (c : Collection) (f : Filter) (spec : Document)
    (upsert returnAfter : Bool) (fresh : ObjectId) :
    let one := c.updateOne f spec upsert fresh
    let found := c.findOneAndUpdate f spec ⟨none, upsert, returnAfter⟩ fresh
    found.1 = one.1 ∧ (∀ e, found.2 = .error e ↔ one.2 = .error e) ∧
      ∀ answer, found.2 = .ok answer →
        match c.documents.findIdx? (f.meaning c.settings.compiler) with
        | some i => c.UpdatesAt spec i returnAfter one.1 answer
        | none =>
            if upsert then c.InsertsOne returnAfter one.1 answer
            else one.1 = c ∧ answer = none := by
  intro one found
  cases hu : Update.parse spec with
  | error e =>
      have hone : one = (c, .error e) := by simp only [one, updateOne, update, hu]; rfl
      have hfound : found = (c, .error e) := by simp only [found, findOneAndUpdate, hu]; rfl
      exact agree_of_error hone hfound
  | ok u =>
      cases hq : c.compile f with
      | error e =>
          have hone : one = (c, .error e) := by simp only [one, updateOne, update, hu, hq]; rfl
          have hfound : found = (c, .error e) := by
            simp only [found, findOneAndUpdate, hu, hq]; rfl
          exact agree_of_error hone hfound
      | ok q =>
          rcases q.split_first c.documents with hnone | ⟨before, old, rest, hsplit, hbefore, hold⟩
          · have hone : one = _ := update_of_no_match hu hq hnone upsert fresh
            have hfound : found = _ :=
              findOneAndUpdate_of_no_candidate hu hq (candidates_eq_nil_iff.mpr hnone) fresh
            have hindex : c.documents.findIdx? (f.meaning c.settings.compiler) = none := by
              rw [← meaning_of_compile hq]
              exact List.findIdx?_eq_none_iff.mpr hnone
            rw [hindex]
            cases upsert with
            | false =>
                rw [hone, hfound]
                refine ⟨rfl, by simp [settle], fun answer hanswer => ⟨rfl, ?_⟩⟩
                exact (Except.ok.inj hanswer).symm
            | true =>
                cases hnext : c.upsert f u fresh with
                | error e =>
                    rw [hnext] at hone hfound
                    exact agree_of_error hone hfound
                | ok result =>
                    rw [hone, hfound, hnext]
                    refine ⟨rfl, by simp [settle, Except.map], fun answer hanswer => ?_⟩
                    obtain rfl := Except.ok.inj hanswer
                    exact insertsOne_of_upsert hnext returnAfter
          · obtain ⟨others, hfirst⟩ := candidates_first hsplit hbefore hold
            have hone : one = _ := updateOne_of_candidate hu hq hfirst upsert fresh
            have hfound : found = _ := findOneAndUpdate_of_candidate hu hq hfirst fresh
            have hindex : c.documents.findIdx? (f.meaning c.settings.compiler) =
                some before.length := by
              rw [← meaning_of_compile hq, hsplit]
              exact findIdx?_first hbefore hold
            have hstored : c.documents[before.length]? = some old := by simp [hsplit]
            rw [hindex]
            cases happly : u.apply old with
            | error e =>
                rw [happly] at hone hfound
                exact agree_of_error hone hfound
            | ok result =>
                rw [hone, hfound, happly]
                refine ⟨rfl, by simp [settle, Except.map], fun answer hanswer => ?_⟩
                obtain rfl := Except.ok.inj hanswer
                exact ⟨u, old, result.1, result.2, hu, hstored, happly, rfl, rfl⟩

theorem selected_of_no_candidate [Pattern.Engine] {q : Query} (hq : c.compile f = .ok q)
    {sort : Option Document} (hnone : c.candidates q sort = []) : c.selected f = [] := by
  rw [← select_of_compile hq, Query.select, List.filter_eq_nil_iff]
  exact fun d hd => Bool.eq_false_iff.mp (candidates_eq_nil_iff.mp hnone d hd)

/-- The candidate that sorting puts first stands for the first of the least
documents. -/
theorem isFirstLeast_of_candidates [Pattern.Engine] {q : Query} (hq : c.compile f = .ok q)
    {sort : Document} (hsort : SortsTotally sort (c.selected f)) {old : Document} {i : Nat}
    {others : List (Document × Nat)} (hfirst : c.candidates q (some sort) = (old, i) :: others) :
    c.IsFirstLeast f sort i := by
  have hmeaning := meaning_of_compile hq
  have htotal : SortsTotally sort ((c.candidates q none).map (·.1)) := by
    rw [candidates_map, select_of_compile hq]
    exact hsort
  have hpairwise := c.pairwise_candidates q
  have hnodup : (c.candidates q none).Nodup := hpairwise.imp fun hlt heq => by
    rw [heq] at hlt
    exact Nat.lt_irrefl _ hlt
  have hmem : ∀ {d j}, (d, j) ∈ c.candidates q none ↔
      c.documents[j]? = some d ∧ f.meaning c.settings.compiler d = true := by
    intro d j
    rw [← hmeaning]
    exact mem_candidates_iff
  have hfound : (old, i) ∈ c.candidates q none := by
    have hperm := perm_sortBy sort (·.1) (c.candidates q none)
    rw [← candidates_some, hfirst] at hperm
    exact hperm.subset (List.mem_cons_self ..)
  obtain ⟨hold, hholds⟩ := hmem.mp hfound
  refine ⟨old, hold, hholds, fun j d hd hselected => ?_⟩
  have hd : (d, j) ∈ c.candidates q none := hmem.mpr ⟨hd, hselected⟩
  have hleast := first_of_sortBy htotal hnodup (y := (d, j)) hfirst
  refine ⟨hleast.1 hd, fun hlt => hleast.2 ?_⟩
  -- Of two candidates, the one in the lower position comes first.
  obtain ⟨front, back, hsplit⟩ := List.append_of_mem hfound
  rw [hsplit] at hd hpairwise ⊢
  have hfront : (d, j) ∈ front := by
    rcases List.mem_append.mp hd with hfront | hback
    · exact hfront
    · have hbehind := (List.pairwise_cons.mp (List.pairwise_append.mp hpairwise).2.1).1
      rcases List.mem_cons.mp hback with heq | hback
      · cases heq
        exact absurd hlt (Nat.lt_irrefl _)
      · exact absurd hlt (Nat.lt_asymm (hbehind _ hback))
  exact (List.singleton_sublist.mpr hfront).append
    (List.singleton_sublist.mpr (List.mem_cons_self ..))

/-- Updating one document and finding and updating it come to the same. Under a
sort that is a total preorder of the documents that match, it is the first of
the least that is updated, which is the one that `findOne` answers. -/
theorem findOneAndUpdate_agrees [Pattern.Engine] (c : Collection) (f : Filter) (spec : Document)
    (upsert returnAfter : Bool) (fresh : ObjectId) :
    (let one := c.updateOne f spec upsert fresh
      let found := c.findOneAndUpdate f spec ⟨none, upsert, returnAfter⟩ fresh
      found.1 = one.1 ∧ (∀ e, found.2 = .error e ↔ one.2 = .error e) ∧
        ∀ answer, found.2 = .ok answer →
          match c.documents.findIdx? (f.meaning c.settings.compiler) with
          | some i => c.UpdatesAt spec i returnAfter one.1 answer
          | none =>
              if upsert then c.InsertsOne returnAfter one.1 answer
              else one.1 = c ∧ answer = none) ∧
    ∀ sort typeMap, SortsTotally sort (c.selected f) →
      let found := c.findOneAndUpdate f spec ⟨some sort, upsert, returnAfter⟩ fresh
      let first := (c.findOne f (some ⟨some sort, none, none, typeMap⟩)).2
      ∀ answer, found.2 = .ok answer →
        (returnAfter = false → first = .ok answer) ∧
          (c.selected f ≠ [] → ∃ i, c.IsFirstLeast f sort i ∧ first = .ok c.documents[i]? ∧
            c.UpdatesAt spec i returnAfter found.1 answer) := by
  refine ⟨c.updateOne_agrees f spec upsert returnAfter fresh, ?_⟩
  intro sort typeMap hsort found first answer hanswer
  rcases c.findOneAndUpdate_cases f spec ⟨some sort, upsert, returnAfter⟩ fresh with ⟨e, h⟩ |
    ⟨u, q, hu, hq, ⟨hnone, -, next, id, -, h⟩ | ⟨hnone, -, h⟩ |
      ⟨old, i, others, new, differs, hcandidates, happly, h⟩⟩
  · cases (congrArg Prod.snd h).symm.trans hanswer
  · have hfirst : first = .ok none :=
      (findOne_eq_candidate hq (some sort) typeMap).trans (by rw [hnone]; rfl)
    refine ⟨fun hbefore => ?_, fun hsome => absurd (selected_of_no_candidate hq hnone) hsome⟩
    obtain rfl := Except.ok.inj ((congrArg Prod.snd h).symm.trans hanswer)
    rw [hfirst, hbefore]
    rfl
  · have hfirst : first = .ok none :=
      (findOne_eq_candidate hq (some sort) typeMap).trans (by rw [hnone]; rfl)
    refine ⟨fun _ => ?_, fun hsome => absurd (selected_of_no_candidate hq hnone) hsome⟩
    obtain rfl := Except.ok.inj ((congrArg Prod.snd h).symm.trans hanswer)
    exact hfirst
  · have hfirst : first = .ok (some old) :=
      (findOne_eq_candidate hq (some sort) typeMap).trans (by rw [hcandidates]; rfl)
    have hold : c.documents[i]? = some old :=
      (mem_candidates_iff.mp (hcandidates ▸ List.mem_cons_self ..)).1
    obtain rfl := Except.ok.inj ((congrArg Prod.snd h).symm.trans hanswer)
    refine ⟨fun hbefore => by rw [hfirst, hbefore]; rfl, fun _ => ⟨i, ?_, ?_, ?_⟩⟩
    · exact isFirstLeast_of_candidates hq hsort hcandidates
    · rw [hfirst, hold]
    · exact ⟨u, old, new, differs, hu, hold, happly, congrArg Prod.fst h, rfl⟩

/-- Of two documents that are least, the first is updated. -/
theorem findOneAndUpdate_agrees_tied :
    let c : Collection := { new (.ofName "robots") with
      documents := [[("n", .int32 2)], [("n", .int32 1)], [("n", .int32 1), ("on", .null)]] }
    let sort : Document := [("n", .int32 1)]
    let found := c.findOneAndUpdate [] [("$inc", .document [("n", .int32 5)])]
      ⟨some sort, false, false⟩ ⟨List.replicate 12 0, rfl⟩
    SortsTotally sort (c.selected []) ∧ found.2 = .ok (some [("n", .int32 1)]) ∧
      (c.findOne [] (some ⟨some sort, none, none, none⟩)).2 = found.2 ∧
      ∃ i, c.IsFirstLeast [] sort i ∧
        c.UpdatesAt [("$inc", .document [("n", .int32 5)])] i false found.1
          (some [("n", .int32 1)]) := by
  intro c sort found
  have hsort : SortsTotally sort (c.selected []) := by
    refine sortsTotally_of_key (fun path d => (d.resolve? path).elim 0 fun v =>
      (v.wholeNumber?).getD 0) fun path hpath => ?_
    obtain rfl := List.mem_singleton.mp hpath
    decide
  have hgreater : sortOrder sort [("n", .int32 2)] [("n", .int32 1)] = .gt := rfl
  have hgreater' : sortOrder sort [("n", .int32 2)] [("n", .int32 1), ("on", .null)] = .gt := rfl
  have htied : sortOrder sort [("n", .int32 1)] [("n", .int32 1), ("on", .null)] = .eq := rfl
  have hcandidates : c.candidates [] (some sort) =
      [([("n", .int32 1)], 1), ([("n", .int32 1), ("on", .null)], 2), ([("n", .int32 2)], 0)] := by
    have hstored : c.candidates [] none = [([("n", .int32 2)], 0), ([("n", .int32 1)], 1),
      ([("n", .int32 1), ("on", .null)], 2)] := rfl
    rw [candidates_some, hstored]
    simp [sortBy, List.mergeSort, hgreater, hgreater', htied]
  have hfound : found.2 = .ok (some [("n", .int32 1)]) := by
    have hcall : found = _ := findOneAndUpdate_of_candidate rfl rfl hcandidates _
    rw [hcall]
    rfl
  obtain ⟨hfirst, hupdated⟩ := (c.findOneAndUpdate_agrees [] [("$inc", .document [("n", .int32 5)])]
    false false ⟨List.replicate 12 0, rfl⟩).2 sort none hsort _ hfound
  obtain ⟨i, hleast, -, hupdates⟩ := hupdated (List.cons_ne_nil _ _)
  exact ⟨hsort, hfound, (hfirst rfl).trans hfound.symm, i, hleast, hupdates⟩

end Agreement

end Collection

end DocStore
