import DocStore.Proofs.Bookkeeping
import DocStore.Proofs.Reflexivity

/-!
# The query log

The log of a collection is the list of the queries that were made, oldest
first. One lemma says what a call adds to it (`Collection.queries_afterCall`):
its own entry if it is a query, whether or not it goes through, and nothing
otherwise. The log of a run is read off the calls by induction
(`Collection.queries_afterCalls`).

A query that was made is found in the log again under the same conditions in
any order (`Filter.Rearranged`). That needs names that come only once, in the
filter and in the filters of its groups. Filters are built so that they do
(`Filter.Built.distinct`), so a name that is looked up is found where it stands
(`Filter.Rearranged.fits`).
-/

namespace DocStore

/-! ## What is logged -/

namespace Collection

variable [Pattern.Engine]

/-- A query adds its entry at the end of the log, and no other call touches the
log. -/
theorem queries_afterCall (c : Collection) (call : Call) :
    (c.afterCall call).queries = c.queries ++ call.query?.toList :=
  (c.bookkeeping call).queries

theorem queries_afterCalls (calls : List Call) (c : Collection) :
    (c.afterCalls calls).queries = c.queries ++ calls.filterMap Call.query? := by
  induction calls generalizing c with
  | nil => exact (List.append_nil _).symm
  | cons call rest ih =>
      calc ((c.afterCall call).afterCalls rest).queries
          = c.queries ++ call.query?.toList ++ rest.filterMap Call.query? := by
            rw [ih, queries_afterCall]
        _ = c.queries ++ (call :: rest).filterMap Call.query? := by
            cases hquery : call.query? <;> simp [hquery]

end Collection

/-! ## Filters as they are built -/

/-- What the builders make: nothing or a document to start with, and then one
condition after the other written into it. -/
inductive Filter.Built : Filter → Prop where
  | empty : Built .empty
  | ofDocument {d : Document} (hd : d.WellFormed) : Built (.ofDocument d)
  | value {f : Filter} (hf : Built f) (key : String) {v : Value} (hv : v.WellFormed) :
      Built (f.insert key (.value v))
  | predicate {f : Filter} (hf : Built f) (key : String) (p : Predicate) :
      Built (f.insert key (.predicate p))
  | matcher {f : Filter} (hf : Built f) (key : String) (m : Matcher) :
      Built (f.insert key (.matcher m))
  | filters {f : Filter} (hf : Built f) (key : String) {members : List Filter}
      (h : ∀ g ∈ members, Built g) : Built (f.insert key (.filters members))

/-- No name comes twice in the condition, at any depth. -/
inductive Condition.Distinct : Condition → Prop where
  | value {v : Value} (h : v.WellFormed) : Distinct (.value v)
  | predicate (p : Predicate) : Distinct (.predicate p)
  | matcher (m : Matcher) : Distinct (.matcher m)
  | filters {members : List Filter} (names : ∀ f ∈ members, (f.map (·.1)).Nodup)
      (h : ∀ f ∈ members, ∀ entry ∈ f, Distinct entry.2) : Distinct (.filters members)

def Filter.Distinct (f : Filter) : Prop := (f.map (·.1)).Nodup ∧ ∀ entry ∈ f, entry.2.Distinct

/-- No number in the condition is NaN, at any depth. -/
inductive Condition.NaNFree : Condition → Prop where
  | value {v : Value} (h : v.NaNFree) : NaNFree (.value v)
  | predicate (p : Predicate) : NaNFree (.predicate p)
  | matcher (m : Matcher) : NaNFree (.matcher m)
  | filters {members : List Filter} (h : ∀ f ∈ members, ∀ entry ∈ f, NaNFree entry.2) :
      NaNFree (.filters members)

def Filter.NaNFree (f : Filter) : Prop := ∀ entry ∈ f, entry.2.NaNFree

namespace Filter

theorem mem_insert {f : Filter} {key : String} {c : Condition} {entry : String × Condition}
    (h : entry ∈ f.insert key c) : entry = (key, c) ∨ entry ∈ f := by
  induction f with
  | nil => exact Or.inl (List.mem_singleton.mp h)
  | cons first rest ih =>
      obtain ⟨k, c'⟩ := first
      rw [insert] at h
      split at h
      · rename_i hk
        subst hk
        exact (List.mem_cons.mp h).imp id (List.mem_cons_of_mem _)
      · rcases List.mem_cons.mp h with rfl | htail
        · exact Or.inr (List.mem_cons_self ..)
        · exact (ih htail).imp id (List.mem_cons_of_mem _)

theorem nodup_insert {f : Filter} (hf : (f.map (·.1)).Nodup) (key : String) (c : Condition) :
    ((f.insert key c).map (·.1)).Nodup := by
  induction f with
  | nil => exact List.nodup_singleton _
  | cons first rest ih =>
      obtain ⟨k, c'⟩ := first
      rw [List.map_cons, List.nodup_cons] at hf
      rw [insert]
      split
      · rw [List.map_cons, List.nodup_cons]
        exact hf
      · rename_i hk
        rw [List.map_cons, List.nodup_cons]
        refine ⟨fun hmem => ?_, ih hf.2⟩
        obtain ⟨entry, hentry, hname⟩ := List.mem_map.mp hmem
        rcases mem_insert hentry with rfl | hold
        · exact hk hname.symm
        · exact hf.1 (List.mem_map.mpr ⟨entry, hold, hname⟩)

theorem Distinct.insert {f : Filter} (hf : f.Distinct) (key : String) {c : Condition}
    (hc : c.Distinct) : (f.insert key c).Distinct := by
  refine ⟨nodup_insert hf.1 key c, fun entry hmem => ?_⟩
  rcases mem_insert hmem with rfl | hold
  · exact hc
  · exact hf.2 entry hold

theorem Built.distinct {f : Filter} (h : f.Built) : f.Distinct := by
  induction h with
  | empty => exact ⟨List.nodup_nil, List.forall_mem_nil _⟩
  | @ofDocument d hd =>
      refine ⟨?_, fun entry hmem => ?_⟩
      · rw [Filter.ofDocument, List.map_map]
        exact hd.nodup
      · obtain ⟨field, hfield, rfl⟩ := List.mem_map.mp hmem
        exact .value (hd.field hfield)
  | value _ key hv ih => exact ih.insert key (.value hv)
  | predicate _ key p ih => exact ih.insert key (.predicate p)
  | matcher _ key m ih => exact ih.insert key (.matcher m)
  | filters _ key _ ih hmembers =>
      exact ih.insert key (.filters (fun g hg => (hmembers g hg).1) fun g hg => (hmembers g hg).2)

/-- With distinct names a condition is found under its name. -/
theorem get?_of_mem {f : Filter} (hf : (f.map (·.1)).Nodup) {key : String} {c : Condition}
    (h : (key, c) ∈ f) : f.get? key = some c := by
  obtain ⟨before, rest, rfl⟩ := List.append_of_mem h
  refine List.lookup_eq_some_iff.mpr ⟨before, rest, rfl, fun entry hentry => bne_iff_ne.mpr ?_⟩
  rw [List.map_append, List.nodup_append] at hf
  exact (hf.2.2 _ (List.mem_map.mpr ⟨entry, hentry, rfl⟩) _ (List.mem_cons_self ..)).symm

end Filter

/-! ## Conditions in another order -/

namespace Rearrangement

mutual

inductive OfConditions : Filter → Filter → Prop where
  | nil : OfConditions [] []
  | cons {key : String} {c c' : Condition} {f g : Filter} (entry : OfCondition c c')
      (rest : OfConditions f g) : OfConditions ((key, c) :: f) ((key, c') :: g)
  | order {f g g' : Filter} (h : OfConditions f g) (hg : g.Perm g') : OfConditions f g'

inductive OfCondition : Condition → Condition → Prop where
  | same (c : Condition) : OfCondition c c
  | filters {fs gs : List Filter} (h : OfFilters fs gs) : OfCondition (.filters fs) (.filters gs)

/-- The filters of a group stay in their places. -/
inductive OfFilters : List Filter → List Filter → Prop where
  | nil : OfFilters [] []
  | cons {f g : Filter} {fs gs : List Filter} (member : OfConditions f g)
      (rest : OfFilters fs gs) : OfFilters (f :: fs) (g :: gs)

end

end Rearrangement

/-- The same conditions in any order, here and in the filters of a group. What
the conditions say is the same to the letter. -/
def Filter.Rearranged (f g : Filter) : Prop := Rearrangement.OfConditions f g

theorem conditionsFit_iff {wanted logged : Filter} :
    conditionsFit wanted logged = true ↔
      ∀ entry ∈ wanted, ∃ c, logged.get? entry.1 = some c ∧ entry.2.fits c = true := by
  induction wanted with
  | nil => simp [conditionsFit]
  | cons entry rest ih =>
      rw [conditionsFit, Bool.and_eq_true, ih, List.forall_mem_cons, Filter.get?]
      cases logged.lookup entry.1 <;> simp

theorem filtersFit_iff {fs gs : List Filter} :
    (fs.length == gs.length && filtersFit fs gs) = true ↔
      List.Forall₂ (fun f g => f.fits g = true) fs gs := by
  induction fs generalizing gs with
  | nil => cases gs <;> simp [filtersFit]
  | cons f fs ih =>
      cases gs with
      | nil => simp
      | cons g gs =>
          rw [List.forall₂_cons, ← ih, filtersFit, Filter.fits]
          simp only [List.length_cons, Nat.add_right_cancel_iff, Bool.and_eq_true, beq_iff_eq]
          tauto

/-- Where every condition that is wanted has its like among the logged ones, of
which there are as many, the filter fits. -/
theorem Filter.fits_of_pairs {wanted logged : Filter} (hlogged : (logged.map (·.1)).Nodup)
    (hlength : wanted.length = logged.length)
    (h : ∀ entry ∈ wanted, ∃ c, (entry.1, c) ∈ logged ∧ entry.2.fits c = true) :
    wanted.fits logged = true := by
  rw [fits, Bool.and_eq_true, beq_iff_eq]
  refine ⟨hlength, conditionsFit_iff.mpr fun entry hmem => ?_⟩
  obtain ⟨c, hc, hfits⟩ := h entry hmem
  exact ⟨c, get?_of_mem hlogged hc, hfits⟩

theorem Condition.fits_self {c : Condition} (hnan : c.NaNFree) (hc : c.Distinct) :
    c.fits c = true := by
  induction hnan with
  | value hv =>
      cases hc with
      | value hwell => rw [fits, Value.same_self hwell hv, Bool.true_or]
  | predicate p => exact beq_self_eq_true p.token
  | matcher m => exact beq_self_eq_true m.token
  | filters _ ih =>
      cases hc with
      | filters names hentries =>
          refine filtersFit_iff.mpr (List.forall₂_same.mpr fun f hf => ?_)
          exact Filter.fits_of_pairs (names f hf) rfl fun entry hmem =>
            ⟨entry.2, hmem, ih f hf entry hmem (hentries f hf entry hmem)⟩

namespace Rearrangement

theorem OfConditions.refl : ∀ f : Filter, OfConditions f f
  | [] => .nil
  | entry :: rest => .cons (.same entry.2) (refl rest)

theorem OfConditions.length_eq : ∀ {f g : Filter}, OfConditions f g → g.length = f.length
  | _, _, .nil => rfl
  | _, _, .cons _ rest => congrArg (· + 1) rest.length_eq
  | _, _, .order h hg => hg.length_eq.symm.trans h.length_eq

mutual

theorem OfConditions.pairs : ∀ {f g : Filter}, OfConditions f g → f.NaNFree →
    (∀ entry ∈ f, entry.2.Distinct) →
      ∀ entry ∈ g, ∃ c, (entry.1, c) ∈ f ∧ entry.2.fits c = true
  | _, _, .nil, _, _ => List.forall_mem_nil _
  | _, _, .cons entry rest, hnan, hf => by
      have hnan := List.forall_mem_cons.mp hnan
      have hf := List.forall_mem_cons.mp hf
      refine List.forall_mem_cons.mpr
        ⟨⟨_, List.mem_cons_self .., entry.fits hnan.1 hf.1⟩, fun other hmem => ?_⟩
      obtain ⟨c, hc, hfits⟩ := rest.pairs hnan.2 hf.2 other hmem
      exact ⟨c, List.mem_cons_of_mem _ hc, hfits⟩
  | _, _, .order h hg, hnan, hf =>
      fun entry hmem => h.pairs hnan hf entry (hg.mem_iff.mpr hmem)

theorem OfCondition.fits : ∀ {c c' : Condition}, OfCondition c c' → c.NaNFree → c.Distinct →
    c'.fits c = true
  | _, _, .same _, hnan, hc => Condition.fits_self hnan hc
  | _, _, .filters h, .filters hnan, .filters names hc =>
      filtersFit_iff.mpr (h.fits hnan fun f hf => ⟨names f hf, hc f hf⟩)

theorem OfFilters.fits : ∀ {fs gs : List Filter}, OfFilters fs gs →
    (∀ f ∈ fs, f.NaNFree) → (∀ f ∈ fs, f.Distinct) →
      List.Forall₂ (fun g f => Filter.fits g f = true) gs fs
  | _, _, .nil, _, _ => .nil
  | _, _, .cons member rest, hnan, hfs => by
      have hnan := List.forall_mem_cons.mp hnan
      have hfs := List.forall_mem_cons.mp hfs
      exact .cons (Filter.fits_of_pairs hfs.1.1 member.length_eq (member.pairs hnan.1 hfs.1.2))
        (rest.fits hnan.2 hfs.2)

end

end Rearrangement

/-- A filter fits the same filter in another order. -/
theorem Filter.Rearranged.fits {f g : Filter} (h : f.Rearranged g) (hnan : f.NaNFree)
    (hf : f.Distinct) : g.fits f = true :=
  fits_of_pairs hf.1 h.length_eq (h.pairs hnan hf.2)

/-! ## Options -/

namespace FindOptions

/-- In the sort specification no name comes twice. -/
def WellFormed (o : FindOptions) : Prop := ∀ spec ∈ o.sort, spec.WellFormed

/-- In the sort specification no number is NaN. -/
def NaNFree (o : FindOptions) : Prop := ∀ spec ∈ o.sort, (Value.document spec).NaNFree

theorem same_self {o : FindOptions} (ho : o.WellFormed) (hnan : o.NaNFree) : o.same o = true := by
  have hsort : sameSort o.sort o.sort = true := by
    cases hspec : o.sort with
    | none => rfl
    | some spec => exact Value.same_self (ho spec hspec) (hnan spec hspec)
  rw [same, hsort]
  simp

/-- The same options, where no options are the default options. -/
def Agree (a b : Option FindOptions) : Prop :=
  a.getD .default = b.getD .default ∨ (a.getD .default).same (b.getD .default) = true

theorem Agree.same {a b : Option FindOptions} (h : Agree a b) (ha : (a.getD .default).WellFormed)
    (hnan : (a.getD .default).NaNFree) : (a.getD .default).same (b.getD .default) = true := by
  rcases h with heq | hsame
  · rw [← heq]
    exact same_self ha hnan
  · exact hsame

end FindOptions

/-! ## The log of a run -/

/-- After any run the log is the list of the queries that were made, oldest
first. Each of them is found there from then on: under its conditions in any
order, and under the same options. -/
theorem Collection.query_log [Pattern.Engine] (settings : CollectionSettings) (calls : List Call) :
    let c := (new settings).afterCalls calls
    c.queries = calls.filterMap Call.query? ∧
      ∀ call ∈ calls, ∀ f options, call.query? = some ⟨f, options⟩ →
        f.Built → f.NaNFree →
          (options.getD .default).WellFormed → (options.getD .default).NaNFree →
            ∀ g options', f.Rearranged g → FindOptions.Agree options options' →
              c.hasQuery g options' = true := by
  intro c
  have hqueries : c.queries = calls.filterMap Call.query? := queries_afterCalls calls _
  refine ⟨hqueries,
    fun call hcall f options hquery hf hnan hoptions honan g options' hg hagree => ?_⟩
  have hlogged : ⟨f, options⟩ ∈ c.queries :=
    hqueries ▸ List.mem_filterMap.mpr ⟨call, hcall, hquery⟩
  refine List.any_eq_true.mpr ⟨_, hlogged, ?_⟩
  rw [QueryRecord.satisfies, hagree.same hoptions honan, hg.fits hnan hf.distinct, Bool.and_self]

/-- A query that was made before everything was dropped is found with its names
the other way round, in its group too, and with the default options written
out. -/
theorem Collection.query_log_dropped :
    let member : Filter := .ofDocument [("b", .null), ("c", .int32 2)]
    let f := (Filter.ofDocument [("a", .int32 1)]).insert "$or" (.filters [member])
    let g : Filter := [("$or", .filters [member.reverse]), ("a", .value (.int32 1))]
    ((new (.ofName "robots")).afterCalls [.act (.find f none), .act .drop]).hasQuery g
      (some .default) = true := by
  intro member f g
  have hscalars : ∀ n : Int32, (Condition.value (.int32 n)).NaNFree :=
    fun _ => .value (.of_scalar (by rintro _ ⟨⟩) rfl)
  have hmember : Document.WellFormed [("b", .null), ("c", .int32 2)] :=
    ⟨by decide, trivial, trivial, trivial⟩
  have hstart : Document.WellFormed [("a", .int32 1)] := ⟨by decide, trivial, trivial⟩
  have hf : f.Built := by
    refine .filters (.ofDocument hstart) "$or" fun built hmem => ?_
    exact List.mem_singleton.mp hmem ▸ .ofDocument hmember
  have hmembernan : member.NaNFree := by
    refine List.forall_mem_cons.mpr ⟨.value (.of_scalar (by rintro _ ⟨⟩) rfl), ?_⟩
    exact List.forall_mem_singleton.mpr (hscalars 2)
  have hnan : f.NaNFree := by
    refine List.forall_mem_cons.mpr ⟨hscalars 1, List.forall_mem_singleton.mpr (.filters ?_)⟩
    exact List.forall_mem_singleton.mpr hmembernan
  have hg : f.Rearranged g := by
    have hgroup : Rearrangement.OfFilters [member] [member.reverse] :=
      .cons (.order (.refl member) (List.reverse_perm member).symm) .nil
    exact .order (.cons (.same _) (.cons (.filters hgroup) .nil)) (.swap ..)
  exact (query_log (.ofName "robots") [.act (.find f none), .act .drop]).2 _
    (List.mem_cons_self ..) f none rfl hf hnan (by rintro _ ⟨⟩) (by rintro _ ⟨⟩) g _ hg (Or.inl rfl)

end DocStore
