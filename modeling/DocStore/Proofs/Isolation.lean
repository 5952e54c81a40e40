import DocStore.Proofs.QueryLog
import DocStore.Proofs.Requests
import Mathlib.Data.List.Induction

/-!
# Isolation of collections

What a program can rely on, whatever it asks of a database (`Database.Isolation`):
names in use are distinct and in the order in which they came into use, handles
that were given for one name share one collection until the name is dropped, and
what is done through one handle is not seen through any other.

Sharing is meant as a program can see it (`Database.Shares`). It comes down to
one handle given twice (`Database.shares_iff`), because a query is logged where
it is made. For a name there is one handle between two drops
(`Database.Gives.eq_iff`).
-/

namespace DocStore

namespace Database

variable {db : Database} {n m : String} {h k : Handle}

/-! ## Sharing -/

/-- Two handles share what is done through them only if they are the same. Otherwise a query that
is made through one of them is in the log of one only. -/
theorem shares_iff [Pattern.Engine] (hh : h.index < db.collections.length) :
    db.Shares h k ↔ h = k := by
  refine ⟨fun hshares => ?_, fun heq => by subst heq; exact fun _ => ⟨rfl, rfl⟩⟩
  by_contra hne
  have hseen : ∀ op, db.get? k = (db.get? h).map (·.afterCall op) := fun op => by
    rw [← get?_call_self, ← get?_call_of_ne hne op]
    exact (hshares op).1
  have hsame : db.get? k = db.get? h := by
    rw [hseen (.act (.count []))]
    exact Option.map_id'
  obtain ⟨c, hc⟩ : ∃ c, db.get? h = some c := ⟨_, List.getElem?_eq_getElem hh⟩
  have hlogged := hseen (.act (.find [] none))
  rw [hsame, hc] at hlogged
  have hqueries : c.queries = (c.afterCall (.act (.find [] none))).queries :=
    congrArg Collection.queries (Option.some.inj hlogged)
  rw [Collection.queries_afterCall] at hqueries
  exact List.cons_ne_nil _ _ (List.self_eq_append_right.mp hqueries)

/-! ## Handles that were given out -/

section Given

variable [Pattern.Engine] {start : Database} {requests : List Request} {r : Request}

theorem Gives.names (hgives : db.Gives r n h) : (db.answer r).1.Names n h := by
  obtain ⟨⟨options, hasks⟩, hreply⟩ := hgives
  have step := db.answers r
  rw [hreply] at step
  exact step.given hasks

theorem Gives.ne_drop (hgives : db.Gives r n h) (m : String) : r ≠ .drop m := by
  rintro rfl
  obtain ⟨⟨options, hasks⟩, -⟩ := hgives
  cases hasks

theorem serve_concat (db : Database) (requests : List Request) (r : Request) :
    db.serve (requests ++ [r]) = ((db.serve requests).answer r).1 :=
  serve_append ..

/-- Where a handle was given out, it is the one of its name as long as the name is not dropped. -/
theorem Gives.serve (hgives : (start.serve requests).Gives r n h) (hsound : start.Sound)
    (later : List Request) :
    (¬ (start.serve (requests ++ [r])).Drops n later ∧
        (start.serve (requests ++ r :: later)).Names n h) ∨
      ((start.serve (requests ++ [r])).Drops n later ∧
        (start.serve (requests ++ r :: later)).Retired h) := by
  have hafter : (start.serve (requests ++ [r])).Names n h := by
    rw [serve_concat]
    exact hgives.names
  have hsplit : start.serve (requests ++ r :: later) =
      (start.serve (requests ++ [r])).serve later := by
    rw [← serve_append, List.append_assoc, List.singleton_append]
  rw [hsplit]
  exact hafter.serve (hsound.serve _) later

theorem Gives.lt (hgives : (start.serve requests).Gives r n h) (hsound : start.Sound)
    (later : List Request) :
    h.index < (start.serve (requests ++ r :: later)).collections.length := by
  rcases hgives.serve hsound later with ⟨-, hn⟩ | ⟨-, hretired⟩
  · exact hn.lt (hsound.serve _)
  · exact hretired.1

theorem Gives.eq_iff {earlier between : List Request} {first second : Request}
    (hsound : start.Sound) (hfirst : (start.serve earlier).Gives first n h)
    (hsecond : (start.serve (earlier ++ first :: between)).Gives second m k) :
    h = k ↔ n = m ∧ ¬ (start.serve (earlier ++ [first])).Drops n between := by
  have hbetween := hsound.serve (earlier ++ first :: between)
  have step := (start.serve (earlier ++ first :: between)).answers second
  rcases hfirst.serve hsound between with ⟨hkept, hn⟩ | ⟨hdrops, hretired⟩
  · have hn' := step.keep hn (hsecond.ne_drop n)
    simp only [hn'.handle_eq_iff hsecond.names (step.sound hbetween), hkept, not_false_eq_true,
      and_true]
  · have hne : h ≠ k := hsecond.names.ne_of_retired (step.retired hretired)
    simp only [hne, hdrops, not_true_eq_false, and_false]

theorem not_mem_names_drop (hsound : db.Sound) (n : String) :
    n ∉ (db.answer (.drop n)).1.names := by
  rcases (db.answers (.drop n)).names_cases hsound with ⟨_, _, -, -, hasks⟩ | ⟨-, hkept⟩
  · cases hasks
  · exact fun hn => hkept n hn rfl

theorem answer_create_of_mem (hn : n ∈ db.names) (options : CollectionOptions) :
    db.answer (.create n options) =
      (db, .refused (.collectionAlreadyExists (db.name ++ "." ++ n))) := by
  cases hlookup : db.lookup? n with
  | none => exact absurd hn (lookup?_eq_none_iff.mp hlookup)
  | some x => simp only [answer, create, hlookup]

theorem answer_drop_eq_iff (hsound : db.Sound) :
    (db.answer (.drop n)).2 = .dropped true ↔ n ∈ db.names := by
  have step := db.answers (.drop n)
  by_cases hn : n ∈ db.names
  · obtain ⟨h, hh⟩ := mem_names_iff.mp hn
    simp only [(step.retire hh hsound).1, hn]
  · have hlookup := lookup?_eq_none_iff.mpr hn
    simp [answer, dropCollection, hlookup, hn]

theorem Gives.emptied {later : List Request} (hgives : (start.serve requests).Gives r n h)
    (hsound : start.Sound) (hkept : ¬ (start.serve (requests ++ [r])).Drops n later) :
    ∃ c, ((start.serve (requests ++ r :: later)).answer (.drop n)).1.get? h = some c ∧
      c.documents = [] ∧ c.dropped = true := by
  rcases hgives.serve hsound later with ⟨-, hn⟩ | ⟨hdrops, -⟩
  · have hend := hsound.serve (requests ++ r :: later)
    have step := (start.serve (requests ++ r :: later)).answers (.drop n)
    obtain ⟨-, -, hget⟩ := step.retire hn hend
    have hc : (start.serve (requests ++ r :: later)).get? h = some _ :=
      List.getElem?_eq_getElem (hn.lt hend)
    rw [hc] at hget
    exact ⟨_, hget, rfl, rfl⟩
  · exact absurd hdrops hkept

/-- A name that is not in use gets a new collection, which only the calls through its own handle
change from then on. -/
theorem answer_of_free {options : CollectionOptions} (hsound : db.Sound) (hfree : n ∉ db.names)
    (hasks : r.asks? = some (n, options)) :
    (db.answer r).2 = .handle ⟨db.collections.length⟩ ∧
      (db.answer r).1.get? ⟨db.collections.length⟩ = some (.new (db.settingsFor n options)) ∧
      ∀ later, .drop n ∉ later →
        ((db.answer r).1.serve later).get? ⟨db.collections.length⟩ =
          some ((Collection.new (db.settingsFor n options)).afterCalls
            (later.filterMap (·.through? ⟨db.collections.length⟩))) := by
  have step := db.answers r
  obtain ⟨hafter, hreply⟩ := step.made_of_free hasks hfree
  have hget : (db.answer r).1.get? ⟨db.collections.length⟩ =
      some (.new (db.settingsFor n options)) := by
    rw [hafter]
    exact List.getElem?_concat_length
  refine ⟨hreply, hget, fun later hkept => ?_⟩
  have hn : (db.answer r).1.Names n ⟨db.collections.length⟩ :=
    Gives.names ⟨⟨options, hasks⟩, hreply⟩
  rw [hn.get?_serve (step.sound hsound) hkept, hget]
  rfl

end Given

/-! ## Order of creation -/

/-- The request at place `k` brought the name into use, and the name is not dropped after it. -/
structure Founded [Pattern.Engine] (start : Database) (requests : List Request) (k : Nat)
    (n : String) : Prop where
  asked : ∃ r options, requests[k]? = some r ∧ r.asks? = some (n, options)
  unused : n ∉ (start.serve (requests.take k)).names
  kept : .drop n ∉ requests.drop (k + 1)

section Founding

variable [Pattern.Engine] {start : Database} {requests : List Request} {r : Request} {place : Nat}

theorem Founded.lt (hf : Founded start requests place n) : place < requests.length := by
  obtain ⟨r, -, hr, -⟩ := hf.asked
  exact (List.getElem?_eq_some_iff.mp hr).1

theorem Founded.snoc (hf : Founded start requests place n) (hr : r ≠ .drop n) :
    Founded start (requests ++ [r]) place n := by
  have hlt := hf.lt
  refine ⟨?_, ?_, ?_⟩
  · rw [List.getElem?_append_left hlt]
    exact hf.asked
  · rw [List.take_append_of_le_length (Nat.le_of_lt hlt)]
    exact hf.unused
  · rw [List.drop_append_of_le_length hlt, List.mem_append, List.mem_singleton]
    exact not_or.mpr ⟨hf.kept, Ne.symm hr⟩

theorem Founded.last {options : CollectionOptions} (hr : r.asks? = some (n, options))
    (hfree : n ∉ (start.serve requests).names) :
    Founded start (requests ++ [r]) requests.length n := by
  refine ⟨⟨r, options, ?_, hr⟩, ?_, ?_⟩
  · exact List.getElem?_concat_length
  · rwa [List.take_left]
  · simp

theorem Founded.mem_names (hf : Founded start requests place n) (hsound : start.Sound) :
    n ∈ (start.serve requests).names := by
  obtain ⟨r, options, hplace, hr⟩ := hf.asked
  obtain ⟨hlt, rfl⟩ := List.getElem?_eq_some_iff.mp hplace
  have hsplit : requests.take place ++ requests[place] :: requests.drop (place + 1) = requests := by
    rw [List.getElem_cons_drop, List.take_append_drop]
  have step := (start.serve (requests.take place)).answers requests[place]
  have hgives : (start.serve (requests.take place)).Gives requests[place] n _ :=
    ⟨⟨options, hr⟩, (step.made_of_free hr hf.unused).2⟩
  rcases hgives.serve hsound (requests.drop (place + 1)) with ⟨-, hn⟩ | ⟨hdrops, -⟩
  · rw [hsplit] at hn
    exact hn.mem_names
  · exact absurd hdrops.mem hf.kept

/-- What is listed was founded, and in this order. -/
theorem founded_names (hsound : start.Sound) (hstart : start.names = [])
    (requests : List Request) :
    (∀ n ∈ (start.serve requests).names, ∃ k, Founded start requests k n) ∧
      (start.serve requests).names.Pairwise fun m n =>
        ∃ j k, j < k ∧ Founded start requests j m ∧ Founded start requests k n := by
  induction requests using List.reverseRecOn with
  | nil =>
      rw [serve, List.foldl_nil, hstart]
      exact ⟨List.forall_mem_nil _, List.Pairwise.nil⟩
  | append_singleton requests r ih =>
      obtain ⟨hfounded, hordered⟩ := ih
      have step := (start.serve requests).answers r
      rw [serve_concat]
      rcases step.names_cases (hsound.serve requests) with
        ⟨n, options, hnames, hfree, hasks⟩ | ⟨hsub, hkept⟩
      · have hold : ∀ {k m}, Founded start requests k m → Founded start (requests ++ [r]) k m :=
          fun hf => hf.snoc (by rintro rfl; cases hasks)
        have hnew : Founded start (requests ++ [r]) requests.length n := .last hasks hfree
        rw [hnames]
        refine ⟨List.forall_mem_append.mpr ⟨?_, ?_⟩,
          List.pairwise_append.mpr ⟨?_, List.pairwise_singleton .., ?_⟩⟩
        · intro m hm
          obtain ⟨k, hk⟩ := hfounded m hm
          exact ⟨k, hold hk⟩
        · intro m hm
          rw [List.mem_singleton.mp hm]
          exact ⟨_, hnew⟩
        · exact hordered.imp fun ⟨j, k, hjk, hj, hk⟩ => ⟨j, k, hjk, hold hj, hold hk⟩
        · intro m hm m' hm'
          rw [List.mem_singleton.mp hm']
          obtain ⟨k, hk⟩ := hfounded m hm
          exact ⟨k, _, hk.lt, hold hk, hnew⟩
      · refine ⟨fun m hm => ?_, ?_⟩
        · obtain ⟨k, hk⟩ := hfounded m (hsub.subset hm)
          exact ⟨k, hk.snoc (hkept m hm)⟩
        · refine (hordered.sublist hsub).imp_of_mem ?_
          rintro m m' hm hm' ⟨j, k, hjk, hj, hk⟩
          exact ⟨j, k, hjk, hj.snoc (hkept m hm), hk.snoc (hkept m' hm')⟩

end Founding

/-! ## Isolation -/

/-- What a program can rely on in a run that begins with `start` and makes these requests. -/
structure Isolation [Pattern.Engine] (start : Database) (requests : List Request) : Prop where
  listed : (start.serve requests).listCollections.map (·.1) =
    (start.serve requests).names.map (start.name ++ "." ++ ·)
  distinct : ((start.serve requests).listCollections.map (·.1)).Nodup
  /-- The names in use are those that were founded, in this order. -/
  founded : ∀ n, n ∈ (start.serve requests).names ↔ ∃ k, Founded start requests k n
  ordered : (start.serve requests).names.Pairwise fun m n =>
    ∃ j k, j < k ∧ Founded start requests j m ∧ Founded start requests k n
  /-- A name in use is refused, and only such a name. -/
  refused : ∀ n options, n ∈ (start.serve requests).names →
    (start.serve requests).answer (.create n options) =
      (start.serve requests, .refused (.collectionAlreadyExists (start.name ++ "." ++ n)))
  created : ∀ n options, n ∉ (start.serve requests).names →
    ∃ h, ((start.serve requests).answer (.create n options)).2 = .handle h
  /-- Two handles share what is done through them if and only if they were given for one name, and
  it was not dropped in between. -/
  shared : ∀ {earlier between later first second n m h k},
    requests = earlier ++ first :: (between ++ second :: later) →
      (start.serve earlier).Gives first n h →
      (start.serve (earlier ++ first :: between)).Gives second m k →
      ((start.serve requests).Shares h k ↔
        n = m ∧ ¬ (start.serve (earlier ++ [first])).Drops n between)
  /-- A handle that does not share what is done does not see it. -/
  apart : ∀ {h k}, ¬ (start.serve requests).Shares h k → ∀ op,
    ((start.serve requests).answer (.call h op)).1.get? k = (start.serve requests).get? k
  /-- A name is dropped if and only if it is in use. -/
  dropped : ∀ n, ((start.serve requests).answer (.drop n)).2 = .dropped true ↔
    n ∈ (start.serve requests).names
  /-- What is dropped is emptied for the handles that were given for it. -/
  emptied : ∀ {earlier later r n h}, requests = earlier ++ r :: later →
    (start.serve earlier).Gives r n h → ¬ (start.serve (earlier ++ [r])).Drops n later →
      ∃ c, ((start.serve requests).answer (.drop n)).1.get? h = some c ∧
        c.documents = [] ∧ c.dropped = true
  /-- Asked for again after it was dropped, a name stands for a new collection, which only the
  calls through its own handle change. -/
  renewed : ∀ {earlier between r n options}, requests = earlier ++ .drop n :: between →
    (∀ q ∈ between, ∀ o, q.asks? ≠ some (n, o)) → r.asks? = some (n, options) →
      ∃ h c, ((start.serve requests).answer r).2 = .handle h ∧
        (start.serve (requests ++ [r])).get? h = some c ∧
        c.documents = [] ∧ c.queries = [] ∧ c.indexes = [] ∧ c.dropped = false ∧
        (∀ {before after q m old}, requests = before ++ q :: after →
          (start.serve before).Gives q m old → old ≠ h) ∧
        ∀ later, .drop n ∉ later → (start.serve (requests ++ r :: later)).get? h =
          some (c.afterCalls (later.filterMap (·.through? h)))

theorem sound_new (name : String) (defaults : CollectionOptions) (operators : Operators) :
    (new name defaults operators).Sound :=
  ⟨List.nodup_nil, List.nodup_nil, List.forall_mem_nil _⟩

/-- Every run of a new database keeps its collections apart. -/
theorem isolation [Pattern.Engine] (name : String) (defaults : CollectionOptions)
    (operators : Operators) (requests : List Request) :
    Isolation (new name defaults operators) requests := by
  have hsound := sound_new name defaults operators
  have hempty : (new name defaults operators).names = [] := rfl
  generalize new name defaults operators = start at hsound hempty
  have hend := hsound.serve requests
  have hlisted : (start.serve requests).listCollections.map (·.1) =
      (start.serve requests).names.map (start.name ++ "." ++ ·) := by
    rw [listCollections, names, List.map_map, List.map_map, serve_name]
    rfl
  have hfounded := founded_names hsound hempty requests
  exact {
    listed := hlisted
    distinct := by
      rw [hlisted]
      exact hend.names.map fun a b => (String.append_right_inj _).mp
    founded := by
      refine fun n => ⟨hfounded.1 n, ?_⟩
      rintro ⟨k, hk⟩
      exact hk.mem_names hsound
    ordered := hfounded.2
    refused := fun n options hn => by
      rw [answer_create_of_mem hn, serve_name]
    created := fun n options hn =>
      ⟨_, (((start.serve requests).answers (.create n options)).made_of_free rfl hn).2⟩
    shared := by
      rintro earlier between later first second n m h k rfl hfirst hsecond
      rw [shares_iff (hfirst.lt hsound _), hfirst.eq_iff hsound hsecond]
    apart := by
      intro h k hapart op
      refine get?_call_of_ne ?_ op
      rintro rfl
      exact hapart fun _ => ⟨rfl, rfl⟩
    dropped := fun n => answer_drop_eq_iff hend
    emptied := by
      rintro earlier later r n h rfl hgives hkept
      exact hgives.emptied hsound hkept
    renewed := by
      rintro earlier between r n options hsplit hbetween hasks
      have hfree : n ∉ (start.serve requests).names := by
        rw [hsplit, serve_append, serve_cons]
        exact not_mem_names_serve (((start.serve earlier).answers _).sound (hsound.serve earlier))
          (not_mem_names_drop (hsound.serve earlier) n) hbetween
      obtain ⟨hreply, hget, hlater⟩ := answer_of_free hend hfree hasks
      refine ⟨_, .new ((start.serve requests).settingsFor n options), hreply, ?_, rfl, rfl, rfl,
        rfl, ?_, ?_⟩
      · rw [serve_concat]
        exact hget
      · rintro before after q m old rfl hgives rfl
        exact Nat.lt_irrefl _ (hgives.lt hsound after)
      · intro later hkept
        rw [serve_append, serve_cons]
        exact hlater later hkept }

/-- Asked for twice, a name has one handle; after it was dropped, it has another. -/
example :
    let db := (new "db" .none []).serve [.select "foo" .none]
    let renewed := db.serve [.drop "foo"]
    (db.answer (.select "foo" .none)).2 = .handle ⟨0⟩ ∧
      (renewed.answer (.select "foo" .none)).2 = .handle ⟨1⟩ :=
  ⟨rfl, rfl⟩

end Database

end DocStore
