import DocStore.Database
import DocStore.Proofs.Runs
import Mathlib.Data.List.Nodup

/-!
# Requests to a database

A program asks a database for collections, drops them by name and calls them
through the handles that it was given. A `Request` is one of these, `answer`
makes it, and `serve` makes one after the other. What a request can do is said
once (`Database.Answers`), and everything else about requests is a case
analysis on that.

In a sound database every name in use stands for a collection of its own
(`Database.Names`). It does so until it is dropped; then the handle is retired
(`Database.Retired`), and no name stands for it again (`Database.Names.serve`).
While a name is in use, the collection behind it is what the calls through its
handle made of it (`Database.Names.get?_serve`).
-/

namespace DocStore

/-! ## Requests -/

/-- What a program can ask of a database and of the handles that it has got. -/
inductive Request : Type 1 where
  | create (name : String) (options : CollectionOptions)
  /-- `Database.collection` is this without options. -/
  | select (name : String) (options : CollectionOptions)
  | drop (name : String)
  | call (h : Handle) (op : Call)

namespace Request

/-- The name for which the request asks for a collection, and the options for a new one. -/
def asks? : Request → Option (String × CollectionOptions)
  | create name options | select name options => some (name, options)
  | _ => none

/-- The call that the request makes through the handle. -/
def through? (h : Handle) : Request → Option Call
  | call k op => if k = h then some op else none
  | _ => none

end Request

inductive Reply where
  | handle (h : Handle)
  | refused (e : Error)
  | dropped (found : Bool)
  | done

namespace Database

def answer [Pattern.Engine] (db : Database) : Request → Database × Reply
  | .create name options =>
      match db.create name options with
      | (after, .ok h) => (after, .handle h)
      | (after, .error e) => (after, .refused e)
  | .select name options => ((db.select name options).1, .handle (db.select name options).2)
  | .drop name => ((db.dropCollection name).1, .dropped (db.dropCollection name).2)
  | .call h op => (((db.run h fun c => (c.afterCall op, ())).map (·.1)).getD db, .done)

/-- The database after one request after the other. -/
def serve [Pattern.Engine] (db : Database) (requests : List Request) : Database :=
  requests.foldl (fun db r => (db.answer r).1) db

/-- The names in use, in the order in which they are listed. -/
def names (db : Database) : List String := db.registrations.map (·.name)

/-- The request asks for a collection of that name and gets this handle. -/
def Gives [Pattern.Engine] (db : Database) (r : Request) (name : String) (h : Handle) : Prop :=
  (∃ options, r.asks? = some (name, options)) ∧ (db.answer r).2 = .handle h

/-- One of the requests drops the collection of that name. -/
def Drops [Pattern.Engine] (db : Database) (name : String) (requests : List Request) : Prop :=
  ∃ earlier later, requests = earlier ++ .drop name :: later ∧
    ((db.serve earlier).answer (.drop name)).2 = .dropped true

/-- What is done through either of the handles is seen through the other. -/
def Shares [Pattern.Engine] (db : Database) (h k : Handle) : Prop :=
  ∀ op, (db.answer (.call h op)).1.get? k = (db.answer (.call h op)).1.get? h ∧
    (db.answer (.call k op)).1.get? h = (db.answer (.call k op)).1.get? k

/-! ## What a request does -/

/-- The ways in which a database answers. -/
inductive Answers [Pattern.Engine] (db : Database) : Request → Database → Reply → Prop where
  | made {r : Request} {name : String} {options : CollectionOptions}
      (asks : r.asks? = some (name, options)) (free : name ∉ db.names) :
      Answers db r (db.register name options).1 (.handle (db.register name options).2)
  | found {name : String} {options : CollectionOptions} {x : Registration}
      (used : x ∈ db.registrations) (hname : x.name = name) :
      Answers db (.select name options) db (.handle x.handle)
  | refused {name : String} {options : CollectionOptions} (used : name ∈ db.names) :
      Answers db (.create name options) db
        (.refused (.collectionAlreadyExists (db.name ++ "." ++ name)))
  | dropped {name : String} {x : Registration} (used : x ∈ db.registrations)
      (hname : x.name = name) :
      Answers db (.drop name)
        { db.dropAt x.handle with
          registrations := db.registrations.eraseP (·.name == name) } (.dropped true)
  | unknown {name : String} (free : name ∉ db.names) :
      Answers db (.drop name) db (.dropped false)
  | called {h : Handle} {op : Call} :
      Answers db (.call h op)
        { db with collections := db.collections.modify h.index (·.afterCall op) } .done

theorem mem_of_lookup? {db : Database} {name : String} {x : Registration}
    (h : db.lookup? name = some x) : x ∈ db.registrations ∧ x.name = name := by
  have hname := List.find?_some (show db.registrations.find? (·.name == name) = some x from h)
  exact ⟨List.mem_of_find?_eq_some h, beq_iff_eq.mp hname⟩

theorem lookup?_eq_none_iff {db : Database} {name : String} :
    db.lookup? name = none ↔ name ∉ db.names := by
  simp [lookup?, names]

theorem run_modify [Pattern.Engine] (db : Database) (h : Handle) (op : Call) :
    ((db.run h fun c => (c.afterCall op, ())).map (·.1)).getD db =
      { db with collections := db.collections.modify h.index (·.afterCall op) } := by
  unfold run get?
  rcases Nat.lt_or_ge h.index db.collections.length with hlt | hge
  · rw [List.modify_eq_set_getElem?, List.getElem?_eq_getElem hlt]
    rfl
  · rw [List.getElem?_eq_none hge, List.modify_eq_self hge]
    rfl

theorem answers [Pattern.Engine] (db : Database) (r : Request) :
    Answers db r (db.answer r).1 (db.answer r).2 := by
  cases r with
  | create name options =>
      cases hlookup : db.lookup? name with
      | none =>
          simp only [answer, create, hlookup]
          exact .made rfl (lookup?_eq_none_iff.mp hlookup)
      | some x =>
          obtain ⟨hmem, rfl⟩ := mem_of_lookup? hlookup
          simp only [answer, create, hlookup]
          exact .refused (List.mem_map_of_mem hmem)
  | select name options =>
      cases hlookup : db.lookup? name with
      | none =>
          simp only [answer, select, hlookup]
          exact .made rfl (lookup?_eq_none_iff.mp hlookup)
      | some x =>
          obtain ⟨hmem, hname⟩ := mem_of_lookup? hlookup
          simp only [answer, select, hlookup]
          exact .found hmem hname
  | drop name =>
      cases hlookup : db.lookup? name with
      | none =>
          simp only [answer, dropCollection, hlookup]
          exact .unknown (lookup?_eq_none_iff.mp hlookup)
      | some x =>
          obtain ⟨hmem, hname⟩ := mem_of_lookup? hlookup
          simp only [answer, dropCollection, hlookup]
          exact .dropped hmem hname
  | call h op =>
      simp only [answer, run_modify]
      exact .called

/-! ## Names and handles -/

variable {db : Database} {n m : String} {h k : Handle}

/-- No two names in use are the same, nor do they stand for the same collection. -/
structure Sound (db : Database) : Prop where
  names : db.names.Nodup
  handles : (db.registrations.map (·.handle)).Nodup
  made : ∀ x ∈ db.registrations, x.handle.index < db.collections.length

/-- The name stands for this collection. -/
def Names (db : Database) (n : String) (h : Handle) : Prop :=
  ∃ x ∈ db.registrations, x.name = n ∧ x.handle = h

/-- The handle is that of a collection for which no name stands. -/
def Retired (db : Database) (h : Handle) : Prop :=
  h.index < db.collections.length ∧ ∀ x ∈ db.registrations, x.handle ≠ h

theorem mem_names_iff : n ∈ db.names ↔ ∃ h, db.Names n h := by
  simp [names, Names]

theorem Names.mem_names (hn : db.Names n h) : n ∈ db.names := mem_names_iff.mpr ⟨h, hn⟩

theorem Names.lt (hn : db.Names n h) (hsound : db.Sound) : h.index < db.collections.length := by
  obtain ⟨x, hx, -, rfl⟩ := hn
  exact hsound.made x hx

theorem Names.handle_eq_iff (hn : db.Names n h) (hm : db.Names m k) (hsound : db.Sound) :
    h = k ↔ n = m := by
  obtain ⟨x, hx, rfl, rfl⟩ := hn
  obtain ⟨y, hy, rfl, rfl⟩ := hm
  refine ⟨fun hhandle => ?_, fun hname => ?_⟩
  · rw [List.inj_on_of_nodup_map hsound.handles hx hy hhandle]
  · rw [List.inj_on_of_nodup_map hsound.names hx hy hname]

theorem Names.ne_of_retired (hn : db.Names n h) (hk : db.Retired k) : k ≠ h := by
  obtain ⟨x, hx, -, rfl⟩ := hn
  exact (hk.2 x hx).symm

/-! ### One request -/

section Step

variable {after : Database} {r : Request} {reply : Reply}

theorem names_register (db : Database) (n : String) (options : CollectionOptions) :
    (db.register n options).1.names = db.names ++ [n] :=
  List.map_append ..

theorem names_eraseP (registrations : List Registration) (n : String) :
    (registrations.eraseP (·.name == n)).map (·.name) = (registrations.map (·.name)).erase n := by
  rw [List.erase_eq_eraseP', List.eraseP_map]
  rfl

theorem length_register (db : Database) (n : String) (options : CollectionOptions) :
    (db.register n options).1.collections.length = db.collections.length + 1 :=
  List.length_append ..

variable [Pattern.Engine]

theorem Answers.name_eq (step : Answers db r after reply) : after.name = db.name := by
  cases step <;> rfl

theorem Answers.length_le (step : Answers db r after reply) :
    db.collections.length ≤ after.collections.length := by
  cases step with
  | made => exact (length_register ..).symm ▸ Nat.le_succ _
  | dropped | called => exact Nat.le_of_eq (List.length_modify ..).symm
  | _ => exact Nat.le_refl _

theorem Answers.sound (step : Answers db r after reply) (hsound : db.Sound) : after.Sound := by
  cases step with
  | made _ free =>
      refine ⟨?_, ?_, ?_⟩
      · rw [names_register]
        exact List.nodup_append.mpr ⟨hsound.names, List.nodup_singleton _, by
          rintro a ha b hb rfl
          exact free (List.mem_singleton.mp hb ▸ ha)⟩
      · rw [register, List.map_append]
        refine List.nodup_append.mpr ⟨hsound.handles, List.nodup_singleton _, ?_⟩
        rintro a ha b hb rfl
        obtain ⟨x, hx, rfl⟩ := List.mem_map.mp ha
        have hlt := hsound.made x hx
        rw [List.mem_singleton.mp hb] at hlt
        exact Nat.lt_irrefl _ hlt
      · intro x hx
        rw [length_register]
        rcases List.mem_append.mp hx with hold | hnew
        · exact Nat.lt_succ_of_lt (hsound.made x hold)
        · rw [List.mem_singleton.mp hnew]
          exact Nat.lt_succ_self _
  | dropped used hname =>
      refine ⟨?_, ?_, ?_⟩
      · rw [names, names_eraseP]
        exact hsound.names.erase _
      · exact hsound.handles.sublist (List.eraseP_sublist.map _)
      · intro x hx
        simp only [dropAt, List.length_modify]
        exact hsound.made x (List.mem_of_mem_eraseP hx)
  | called =>
      refine ⟨hsound.names, hsound.handles, fun x hx => ?_⟩
      simp only [List.length_modify]
      exact hsound.made x hx
  | _ => exact hsound

/-- A name comes into use at the end of the list, or some go out of use. -/
theorem Answers.names_cases (step : Answers db r after reply) (hsound : db.Sound) :
    (∃ n options, after.names = db.names ++ [n] ∧ n ∉ db.names ∧ r.asks? = some (n, options)) ∨
      (after.names.Sublist db.names ∧ ∀ n ∈ after.names, r ≠ .drop n) := by
  cases step with
  | made asks free => exact Or.inl ⟨_, _, names_register .., free, asks⟩
  | dropped used hname =>
      refine Or.inr ⟨?_, ?_⟩
      · rw [names, names_eraseP]
        exact List.erase_sublist
      · rintro n hn heq
        cases heq
        rw [names, names_eraseP] at hn
        exact (hsound.names.mem_erase_iff.mp hn).1 rfl
  | unknown free =>
      refine Or.inr ⟨List.Sublist.refl _, ?_⟩
      rintro n hn heq
      cases heq
      exact free hn
  | _ =>
      refine Or.inr ⟨List.Sublist.refl _, ?_⟩
      rintro n - heq
      cases heq

theorem Answers.not_mem_names (step : Answers db r after reply) (hsound : db.Sound)
    (hfree : n ∉ db.names) (hr : ∀ options, r.asks? ≠ some (n, options)) :
    n ∉ after.names := by
  rcases step.names_cases hsound with ⟨m, options, hnames, -, hasks⟩ | ⟨hsub, -⟩
  · rw [hnames, List.mem_append, List.mem_singleton]
    rintro (hold | rfl)
    · exact hfree hold
    · exact hr options hasks
  · exact fun hn => hfree (hsub.subset hn)

/-- A name keeps standing for a collection until it is dropped. -/
theorem Answers.keep (step : Answers db r after reply) (hn : db.Names n h) (hr : r ≠ .drop n) :
    after.Names n h := by
  obtain ⟨x, hx, rfl, rfl⟩ := hn
  refine ⟨x, ?_, rfl, rfl⟩
  cases step with
  | made => exact List.mem_append_left _ hx
  | dropped =>
      refine (List.mem_eraseP_of_neg ?_).mpr hx
      rw [beq_iff_eq]
      rintro rfl
      exact hr rfl
  | _ => exact hx

/-- A name that is not in use gets a new collection. -/
theorem Answers.made_of_free {options : CollectionOptions} (step : Answers db r after reply)
    (hr : r.asks? = some (n, options)) (hfree : n ∉ db.names) :
    after = (db.register n options).1 ∧ reply = .handle ⟨db.collections.length⟩ := by
  cases step with
  | made asks _ =>
      cases asks.symm.trans hr
      exact ⟨rfl, rfl⟩
  | found used hname =>
      cases hr
      exact absurd (hname ▸ List.mem_map_of_mem used) hfree
  | refused used =>
      cases hr
      exact absurd used hfree
  | _ => cases hr

theorem Answers.given (step : Answers db r after (.handle h)) {options : CollectionOptions}
    (hr : r.asks? = some (n, options)) : after.Names n h := by
  cases step with
  | made asks free =>
      cases asks.symm.trans hr
      exact ⟨_, List.mem_append_right _ (List.mem_singleton_self _), rfl, rfl⟩
  | found used hname =>
      cases hr
      exact ⟨_, used, hname, rfl⟩

/-- A handle that no name stands for never gets one again. -/
theorem Answers.retired (step : Answers db r after reply) (hh : db.Retired h) :
    after.Retired h := by
  refine ⟨Nat.lt_of_lt_of_le hh.1 step.length_le, fun x hx => ?_⟩
  cases step with
  | made =>
      rcases List.mem_append.mp hx with hold | hnew
      · exact hh.2 x hold
      · rw [List.mem_singleton.mp hnew]
        rintro rfl
        exact Nat.lt_irrefl _ hh.1
  | dropped => exact hh.2 x (List.mem_of_mem_eraseP hx)
  | _ => exact hh.2 x hx

theorem Answers.retire (step : Answers db (.drop n) after reply) (hn : db.Names n h)
    (hsound : db.Sound) :
    reply = .dropped true ∧ after.Retired h ∧ after.get? h = (db.get? h).map Collection.drop := by
  obtain ⟨x, hx, rfl, rfl⟩ := hn
  cases step with
  | made asks => cases asks
  | unknown free => exact absurd (List.mem_map_of_mem hx) free
  | dropped used hname =>
      obtain rfl := List.inj_on_of_nodup_map hsound.names used hx hname
      refine ⟨rfl, ⟨?_, fun y hy hhandle => ?_⟩, ?_⟩
      · simp only [dropAt, List.length_modify]
        exact hsound.made _ hx
      · obtain rfl := List.inj_on_of_nodup_map hsound.handles (List.mem_of_mem_eraseP hy) hx hhandle
        have hgone : y.name ∈ (db.registrations.map (·.name)).erase y.name := by
          rw [← names_eraseP]
          exact List.mem_map_of_mem hy
        exact ((hsound.names.mem_erase_iff).mp hgone).1 rfl
      · exact List.getElem?_modify_eq ..

omit [Pattern.Engine] in
theorem index_ne (hne : h ≠ k) : h.index ≠ k.index :=
  fun heq => hne (congrArg Handle.mk heq)

theorem get?_call_self (db : Database) (h : Handle) (op : Call) :
    (db.answer (.call h op)).1.get? h = (db.get? h).map (·.afterCall op) := by
  simp only [answer, run_modify]
  exact List.getElem?_modify_eq ..

theorem get?_call_of_ne (hne : h ≠ k) (op : Call) :
    (db.answer (.call h op)).1.get? k = db.get? k := by
  simp only [answer, run_modify]
  exact List.getElem?_modify_ne _ _ (index_ne hne)

/-- A request changes what is seen through a handle by its call through it only. -/
theorem Answers.get? (step : Answers db r after reply) (hlt : h.index < db.collections.length)
    (hr : ∀ n, r = .drop n → ¬ db.Names n h) :
    after.get? h = (db.get? h).map fun c => c.afterCalls (r.through? h).toList := by
  cases step with
  | made asks _ =>
      have hthrough : r.through? h = none := by
        cases r <;> first | rfl | cases asks
      rw [hthrough]
      exact (List.getElem?_append_left hlt).trans Option.map_id'.symm
  | @dropped name x used hname =>
      have hne : x.handle ≠ h := fun heq => hr name rfl ⟨x, used, hname, heq⟩
      exact (List.getElem?_modify_ne _ _ (index_ne hne)).trans Option.map_id'.symm
  | @called k op =>
      by_cases hk : k = h
      · subst hk
        rw [Request.through?, if_pos rfl]
        exact List.getElem?_modify_eq ..
      · rw [Request.through?, if_neg hk]
        exact (List.getElem?_modify_ne _ _ (index_ne hk)).trans Option.map_id'.symm
  | _ => exact Option.map_id'.symm

end Step

/-! ### One request after the other -/

section Run

variable [Pattern.Engine] {requests earlier later : List Request} {r : Request}

theorem serve_append (db : Database) (earlier later : List Request) :
    db.serve (earlier ++ later) = (db.serve earlier).serve later :=
  List.foldl_append ..

theorem serve_cons (db : Database) (r : Request) (later : List Request) :
    db.serve (r :: later) = (db.answer r).1.serve later := rfl

theorem Drops.cons_iff : db.Drops n (r :: later) ↔
    (r = .drop n ∧ (db.answer r).2 = .dropped true) ∨ (db.answer r).1.Drops n later := by
  constructor
  · rintro ⟨_ | ⟨first, between⟩, rest, hsplit, hdropped⟩
    · obtain ⟨rfl, -⟩ := List.cons.inj hsplit
      exact Or.inl ⟨rfl, hdropped⟩
    · obtain ⟨rfl, rfl⟩ := List.cons.inj hsplit
      exact Or.inr ⟨between, rest, rfl, hdropped⟩
  · rintro (⟨rfl, hdropped⟩ | ⟨between, rest, rfl, hdropped⟩)
    · exact ⟨[], later, rfl, hdropped⟩
    · exact ⟨r :: between, rest, rfl, hdropped⟩

theorem not_drops_nil : ¬ db.Drops n [] := by
  rintro ⟨between, rest, hsplit, -⟩
  exact List.append_ne_nil_of_right_ne_nil between (List.cons_ne_nil _ rest) hsplit.symm

theorem serve_name (db : Database) (requests : List Request) :
    (db.serve requests).name = db.name := by
  induction requests generalizing db with
  | nil => rfl
  | cons r rest ih => exact (ih _).trans (db.answers r).name_eq

theorem Sound.serve (hsound : db.Sound) (requests : List Request) :
    (db.serve requests).Sound := by
  induction requests generalizing db with
  | nil => exact hsound
  | cons r rest ih => exact ih ((db.answers r).sound hsound)

theorem Retired.serve (hh : db.Retired h) (requests : List Request) :
    (db.serve requests).Retired h := by
  induction requests generalizing db with
  | nil => exact hh
  | cons r rest ih => exact ih ((db.answers r).retired hh)

/-- A name stands for its collection until it is dropped, and then no name ever does. -/
theorem Names.serve (hn : db.Names n h) (hsound : db.Sound) (requests : List Request) :
    (¬ db.Drops n requests ∧ (db.serve requests).Names n h) ∨
      (db.Drops n requests ∧ (db.serve requests).Retired h) := by
  induction requests generalizing db with
  | nil => exact Or.inl ⟨not_drops_nil, hn⟩
  | cons r rest ih =>
      have step := db.answers r
      rw [Drops.cons_iff, serve_cons]
      by_cases hr : r = .drop n
      · subst hr
        obtain ⟨hreply, hretired, -⟩ := step.retire hn hsound
        exact Or.inr ⟨Or.inl ⟨rfl, hreply⟩, hretired.serve rest⟩
      · simpa only [hr, false_and, false_or] using ih (step.keep hn hr) (step.sound hsound)

/-- While its name is in use, what is seen through a handle is what the calls through it made. -/
theorem Names.get?_serve (hn : db.Names n h) (hsound : db.Sound) (hkept : .drop n ∉ requests) :
    (db.serve requests).get? h =
      (db.get? h).map fun c => c.afterCalls (requests.filterMap (·.through? h)) := by
  induction requests generalizing db with
  | nil => exact Option.map_id'.symm
  | cons r rest ih =>
      have step := db.answers r
      obtain ⟨hr, hrest⟩ := not_or.mp (mt List.mem_cons.mpr hkept)
      have hdrop : ∀ m, r = .drop m → ¬ db.Names m h := by
        rintro m rfl hm
        rw [(hm.handle_eq_iff hn hsound).mp rfl] at hr
        exact hr rfl
      have hcalls : (r :: rest).filterMap (·.through? h) =
          (r.through? h).toList ++ rest.filterMap (·.through? h) := by
        cases hthrough : r.through? h <;> simp [hthrough]
      rw [serve_cons, ih (step.keep hn (Ne.symm hr)) (step.sound hsound) hrest,
        step.get? (hn.lt hsound) hdrop, Option.map_map, hcalls]
      exact congrArg (fun f => (db.get? h).map f) (funext fun c => List.foldl_append.symm)

theorem Drops.mem (hdrops : db.Drops n requests) : .drop n ∈ requests := by
  obtain ⟨earlier, later, rfl, -⟩ := hdrops
  exact List.mem_append_right _ (List.mem_cons_self ..)

theorem not_mem_names_serve (hsound : db.Sound) (hfree : n ∉ db.names)
    (hrequests : ∀ r ∈ requests, ∀ options, r.asks? ≠ some (n, options)) :
    n ∉ (db.serve requests).names := by
  induction requests generalizing db with
  | nil => exact hfree
  | cons r rest ih =>
      obtain ⟨hr, hrest⟩ := List.forall_mem_cons.mp hrequests
      have step := db.answers r
      exact ih (step.sound hsound) (step.not_mem_names hsound hfree hr) hrest

end Run

end Database

end DocStore
