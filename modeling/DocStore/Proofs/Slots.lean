import DocStore.Proofs.Divergence

/-!
# The slot that a path leads to

A path leads to a slot of a document, a place given by steps from part to part
(`Document.locate?`). One that spells a key, dots and all, leads to that field;
any other path goes down segment by segment (`Document.route`). Two paths can
lead to one slot, since an index can be spelt in more than one way.

Reading and overwriting are a lens on the slot (`Document.replace?_lens`). They
find the same paths. What is written is read, writing what is there changes
nothing, and of two writes only the second counts; so what was there first can
be put back. Slots of which neither is inside the other do not see each other's
writes.

All of this holds as it does because a write leaves the steps alone: in the
value that is written into, every segment is the step that it was
(`Value.step?_withChild`), so a path leads to the same slot afterwards
(`Document.locate?_replace?`).
-/

namespace DocStore

/-! ## Steps -/

/-- A step from a value to one of its parts. -/
inductive Path.Step where
  | field (key : String)
  | item (i : Nat)
  deriving DecidableEq, Repr

open DocStore.Path

/-- Neither slot is inside the other. -/
def Path.Apart (slot other : List Step) : Prop := ¬ slot <+: other ∧ ¬ other <+: slot

theorem Path.Apart.of_cons {step : Step} {slot other : List Step}
    (h : Apart (step :: slot) (step :: other)) : Apart slot other :=
  ⟨fun hinside => h.1 (List.cons_prefix_cons.mpr ⟨rfl, hinside⟩),
    fun hinside => h.2 (List.cons_prefix_cons.mpr ⟨rfl, hinside⟩)⟩

namespace Value

/-- The part that the step leads to. -/
def part? : Value → Step → Option Value
  | .document fields, .field key => Document.get? fields key
  | .array items, .item i => items[i]?
  | _, _ => none

/-- The step that a segment is in the value. -/
def step? : Value → String → Option Step
  | .document _, segment => some (.field segment)
  | .array _, segment => (index? segment).map .item
  | _, _ => none

variable {v old new changed : Value} {segment : String} {path : List String} {step other : Step}

theorem child?_eq (v : Value) (segment : String) :
    v.child? segment = (v.step? segment).bind v.part? := by
  cases v with
  | array items =>
      rw [child?, step?, Option.bind_map]
      rfl
  | _ => rfl

theorem child?_of_step? (h : v.step? segment = some step) : v.child? segment = v.part? step := by
  rw [child?_eq, h, Option.bind_some]

/-! ### Writing a part -/

theorem step?_withChild (v : Value) (segment : String) (new : Value) (other : String) :
    (v.withChild segment new).step? other = v.step? other := by
  cases v with
  | array items =>
      rw [withChild]
      split <;> rfl
  | _ => rfl

theorem child?_withChild_self (h : v.child? segment = some old) (new : Value) :
    (v.withChild segment new).child? segment = some new := by
  cases v with
  | document fields => exact Document.get?_insert_self fields segment new
  | array items =>
      obtain ⟨i, hi, hitem⟩ := Option.bind_eq_some_iff.mp h
      simp only [withChild, child?, hi]
      exact List.getElem?_set_self (List.getElem?_eq_some_iff.mp hitem).1
  | _ => cases h

theorem part?_withChild_self (h : v.step? segment = some step) (hold : v.part? step = some old)
    (new : Value) : (v.withChild segment new).part? step = some new := by
  have hstep : (v.withChild segment new).step? segment = some step :=
    (step?_withChild v segment new segment).trans h
  rw [← child?_of_step? hstep]
  exact child?_withChild_self ((child?_of_step? h).trans hold) new

theorem part?_withChild_of_ne (h : v.step? segment = some step) (hne : other ≠ step)
    (new : Value) : (v.withChild segment new).part? other = v.part? other := by
  cases v with
  | document fields =>
      obtain rfl := Option.some.inj h
      cases other with
      | item j => rfl
      | field key =>
          exact Document.get?_insert_of_ne fields new fun heq => hne (congrArg Step.field heq)
  | array items =>
      obtain ⟨i, hi, rfl⟩ := Option.map_eq_some_iff.mp h
      simp only [withChild, hi]
      cases other with
      | field key => rfl
      | item j => exact List.getElem?_set_ne fun heq => hne (congrArg Step.item heq.symm)
  | _ => cases h

theorem withChild_of_child? (h : v.child? segment = some old) : v.withChild segment old = v := by
  cases v with
  | document fields => exact congrArg document (Document.insert_of_get? h)
  | array items =>
      obtain ⟨i, hi, hitem⟩ := Option.bind_eq_some_iff.mp h
      obtain ⟨hlt, rfl⟩ := List.getElem?_eq_some_iff.mp hitem
      simp only [withChild, hi, List.set_getElem_self]
  | _ => cases h

theorem withChild_withChild (v : Value) (segment : String) (first second : Value) :
    (v.withChild segment first).withChild segment second = v.withChild segment second := by
  cases v with
  | document fields => exact congrArg document (Document.insert_insert_self fields segment ..)
  | array items =>
      cases hi : index? segment with
      | none => simp only [withChild, hi]
      | some i => simp only [withChild, hi, List.set_set]
  | _ => rfl

/-! ## Slots -/

/-- The slot that the segments lead to. -/
def locate? : Value → List String → Option (List Step)
  | _, [] => some []
  | v, segment :: rest =>
      (v.step? segment).bind fun step =>
        (v.part? step).bind fun part => (part.locate? rest).map (step :: ·)

/-- What the slot holds. -/
def at? : Value → List Step → Option Value
  | v, [] => some v
  | v, step :: rest => (v.part? step).bind fun part => part.at? rest

theorem locate?_cons {rest : List String} {slot : List Step} :
    v.locate? (segment :: rest) = some slot ↔
      ∃ step part below, v.step? segment = some step ∧ v.part? step = some part ∧
        part.locate? rest = some below ∧ step :: below = slot := by
  simp [locate?, Option.bind_eq_some_iff]

/-- Reading goes to the slot. -/
theorem descend?_eq (v : Value) (path : List String) :
    v.descend? path = (v.locate? path).bind v.at? := by
  induction path generalizing v with
  | nil => rfl
  | cons segment rest ih =>
      rw [descend?, child?_eq, locate?]
      cases v.step? segment with
      | none => rfl
      | some step =>
          cases hpart : v.part? step with
          | none => simp [hpart]
          | some part => simp [hpart, ih, at?, Option.bind_map, Function.comp_def]

theorem descend?_singleton (v : Value) (segment : String) :
    v.descend? [segment] = v.child? segment :=
  Option.bind_fun_some ..

/-- Overwriting finds what reading finds. -/
theorem replaceAt?_isSome (v new : Value) (path : List String) :
    (v.replaceAt? path new).isSome = (v.descend? path).isSome := by
  induction path generalizing v with
  | nil => rfl
  | cons segment rest ih =>
      rw [replaceAt?, descend?]
      cases v.child? segment with
      | none => rfl
      | some child => exact Option.isSome_map.trans (ih child)

theorem descend?_replaceAt?_self (h : v.replaceAt? path new = some changed) :
    changed.descend? path = some new := by
  induction path generalizing v changed with
  | nil => exact h.symm
  | cons segment rest ih =>
      obtain ⟨child, below, hchild, hbelow, rfl⟩ := replaceAt?_cons_iff.mp h
      rw [descend?, child?_withChild_self hchild]
      exact ih hbelow

/-- Writing back what is there changes nothing. -/
theorem replaceAt?_self (h : v.descend? path = some old) : v.replaceAt? path old = some v := by
  induction path generalizing v with
  | nil => exact h.symm
  | cons segment rest ih =>
      obtain ⟨child, hchild, hbelow⟩ := Option.bind_eq_some_iff.mp h
      rw [replaceAt?, hchild, Option.bind_some, ih hbelow, Option.map_some,
        withChild_of_child? hchild]

/-- Of two writes only the second counts. -/
theorem replaceAt?_replaceAt? (h : v.replaceAt? path new = some changed) (newer : Value) :
    changed.replaceAt? path newer = v.replaceAt? path newer := by
  induction path generalizing v changed with
  | nil => rfl
  | cons segment rest ih =>
      obtain ⟨child, below, hchild, hbelow, rfl⟩ := replaceAt?_cons_iff.mp h
      rw [replaceAt?, replaceAt?, child?_withChild_self hchild, hchild, Option.bind_some,
        Option.bind_some, ih hbelow]
      simp only [withChild_withChild]

/-- The segments lead to the same slot afterwards. -/
theorem locate?_replaceAt? (h : v.replaceAt? path new = some changed) :
    changed.locate? path = v.locate? path := by
  induction path generalizing v changed with
  | nil => rfl
  | cons segment rest ih =>
      obtain ⟨child, below, hchild, hbelow, rfl⟩ := replaceAt?_cons_iff.mp h
      rw [child?_eq] at hchild
      obtain ⟨step, hstep, hpart⟩ := Option.bind_eq_some_iff.mp hchild
      rw [locate?, locate?, step?_withChild, hstep, Option.bind_some, Option.bind_some,
        part?_withChild_self hstep hpart, hpart, Option.bind_some, Option.bind_some, ih hbelow]

/-- A write is not seen at a slot apart from its own. -/
theorem descend?_replaceAt?_of_apart {others : List String} {slot place : List Step}
    (h : v.replaceAt? path new = some changed) (hslot : v.locate? path = some slot)
    (hplace : v.locate? others = some place) (hapart : Apart slot place) :
    changed.descend? others = v.descend? others := by
  induction path generalizing v changed others slot place with
  | nil =>
      obtain rfl := Option.some.inj hslot
      exact absurd (List.nil_prefix ..) hapart.1
  | cons segment rest ih =>
      cases others with
      | nil =>
          obtain rfl := Option.some.inj hplace
          exact absurd (List.nil_prefix ..) hapart.2
      | cons first others =>
          obtain ⟨child, written, hchild, hwritten, rfl⟩ := replaceAt?_cons_iff.mp h
          obtain ⟨step, part, below, hstep, hpart, hbelow, rfl⟩ := locate?_cons.mp hslot
          obtain ⟨step', part', below', hstep', hpart', hbelow', rfl⟩ := locate?_cons.mp hplace
          have hstepw : (v.withChild segment written).step? first = some step' :=
            (step?_withChild ..).trans hstep'
          rw [descend?, descend?, child?_of_step? hstepw, child?_of_step? hstep']
          by_cases heq : step' = step
          · -- Both go on in the part that has been written into.
            subst heq
            obtain rfl := Option.some.inj (hchild.symm.trans ((child?_of_step? hstep).trans hpart))
            obtain rfl := Option.some.inj (hpart.symm.trans hpart')
            rw [part?_withChild_self hstep hpart, hpart, Option.bind_some, Option.bind_some]
            exact ih hwritten hbelow hbelow' hapart.of_cons
          · rw [part?_withChild_of_ne hstep heq]

end Value

/-! ## Documents -/

namespace Document

/-- The segments along which the path is followed: the path as it is if it
spells a key. -/
def route (d : Document) (path : String) : List String :=
  if d.contains path then [path] else segments path

/-- The slot that the path leads to. -/
def locate? (d : Document) (path : String) : Option (List Step) :=
  (Value.document d).locate? (d.route path)

variable {d changed : Document} {path : String} {old new : Value}

theorem exists_route (d : Document) (path : String) :
    ∃ first rest, d.route path = first :: rest := by
  unfold route
  split
  · exact ⟨path, [], rfl⟩
  · exact exists_segments path

/-- Nothing gets in the way of the segments. -/
theorem route_of_not_shadows (h : d.shadows path = false) : d.route path = segments path := by
  unfold route
  split
  · rename_i hcontains
    have hplain : '.' ∉ path.toList := by simpa [shadows, hcontains] using h
    exact (segments_of_not_mem hplain).symm
  · rfl

theorem resolve?_eq_descend? (d : Document) (path : String) :
    d.resolve? path = (Value.document d).descend? (d.route path) := by
  unfold resolve? route contains
  cases hget : d.get? path with
  | none => rfl
  | some v =>
      rw [Option.isSome_some, if_pos rfl, Value.descend?_singleton]
      exact hget.symm

theorem replaceAt?_document {first : String} {rest : List String} {result : Value}
    (h : (Value.document d).replaceAt? (first :: rest) new = some result) :
    ∃ child below, d.get? first = some child ∧ result = .document (d.insert first below) := by
  obtain ⟨child, below, hchild, -, rfl⟩ := Value.replaceAt?_cons_iff.mp h
  exact ⟨child, below, hchild, rfl⟩

theorem replaceAt?_route (d : Document) (path : String) (new : Value) :
    (Value.document d).replaceAt? (d.route path) new = (d.replace? path new).map .document := by
  unfold replace? route
  split
  · rename_i hcontains
    obtain ⟨old, hold⟩ := Option.isSome_iff_exists.mp hcontains
    rw [Value.replaceAt?, Value.child?, hold]
    rfl
  · obtain ⟨first, rest, hsegments⟩ := exists_segments path
    rw [hsegments]
    cases hresult : (Value.document d).replaceAt? (first :: rest) new with
    | none => rfl
    | some result =>
        obtain ⟨child, below, -, rfl⟩ := replaceAt?_document hresult
        rfl

theorem replace?_eq_some_iff :
    d.replace? path new = some changed ↔
      (Value.document d).replaceAt? (d.route path) new = some (.document changed) := by
  rw [replaceAt?_route, Option.map_eq_some_iff]
  exact ⟨fun h => ⟨changed, h, rfl⟩, fun ⟨_, h, heq⟩ => Value.document.inj heq ▸ h⟩

theorem isSome_replace? (d : Document) (path : String) (new : Value) :
    (d.replace? path new).isSome = (d.resolve? path).isSome := by
  rw [resolve?_eq_descend?, ← Value.replaceAt?_isSome _ new, replaceAt?_route, Option.isSome_map]

theorem exists_replace? (h : d.resolve? path = some old) (new : Value) :
    ∃ changed, d.replace? path new = some changed := by
  refine Option.isSome_iff_exists.mp ?_
  rw [isSome_replace?, h, Option.isSome_some]

/-- Overwriting leaves the keys of the document as they are. -/
theorem contains_replace? (h : d.replace? path new = some changed) (key : String) :
    changed.contains key = d.contains key := by
  have hreplace := replace?_eq_some_iff.mp h
  obtain ⟨first, rest, hroute⟩ := d.exists_route path
  rw [hroute] at hreplace
  obtain ⟨child, below, hchild, heq⟩ := replaceAt?_document hreplace
  obtain rfl := Value.document.inj heq
  unfold contains
  by_cases hkey : key = first
  · rw [hkey, get?_insert_self, hchild, Option.isSome_some, Option.isSome_some]
  · rw [get?_insert_of_ne d below hkey]

/-- Every path is followed along the same segments afterwards. -/
theorem route_replace? (h : d.replace? path new = some changed) (other : String) :
    changed.route other = d.route other := by
  unfold route
  rw [contains_replace? h]

theorem locate?_replace? (h : d.replace? path new = some changed) :
    changed.locate? path = d.locate? path := by
  unfold locate?
  rw [route_replace? h]
  exact Value.locate?_replaceAt? (replace?_eq_some_iff.mp h)

/-- What overwrites a field is read instead of it. -/
theorem resolve?_replace?_self (h : d.replace? path new = some changed) :
    changed.resolve? path = some new := by
  rw [resolve?_eq_descend?, route_replace? h]
  exact Value.descend?_replaceAt?_self (replace?_eq_some_iff.mp h)

theorem exists_slot (h : d.resolve? path = some old) :
    ∃ slot, d.locate? path = some slot ∧ (Value.document d).at? slot = some old := by
  rw [resolve?_eq_descend?, Value.descend?_eq] at h
  exact Option.bind_eq_some_iff.mp h

/-- Overwriting is a lens on what is read. It finds the same paths and the same
slot, and the slot holds what is read. What is written into it is read, what was
there can be put back, and no path to a slot apart from it sees the write. -/
theorem replace?_lens (d : Document) (path : String) :
    (∀ new, (d.replace? path new).isSome = (d.resolve? path).isSome) ∧
      ∀ old, d.resolve? path = some old →
        d.replace? path old = some d ∧
        ∃ slot, d.locate? path = some slot ∧ (Value.document d).at? slot = some old ∧
          ∀ new changed, d.replace? path new = some changed →
            changed.locate? path = some slot ∧ (Value.document changed).at? slot = some new ∧
            changed.resolve? path = some new ∧ changed.replace? path old = some d ∧
            ∀ other place, d.locate? other = some place → Apart slot place →
              changed.resolve? other = d.resolve? other := by
  refine ⟨d.isSome_replace? path, fun old hold => ?_⟩
  have hread : (Value.document d).descend? (d.route path) = some old :=
    (d.resolve?_eq_descend? path).symm.trans hold
  obtain ⟨slot, hslot, hat⟩ := exists_slot hold
  refine ⟨replace?_eq_some_iff.mpr (Value.replaceAt?_self hread), slot, hslot, hat,
    fun new changed h => ?_⟩
  have hwrite := replace?_eq_some_iff.mp h
  have hslotw : changed.locate? path = some slot := (locate?_replace? h).trans hslot
  have hreadw : changed.resolve? path = some new := resolve?_replace?_self h
  refine ⟨hslotw, ?_, hreadw, ?_, fun other place hplace hapart => ?_⟩
  · obtain ⟨slot', hslot', hat'⟩ := exists_slot hreadw
    rwa [Option.some.inj (hslotw.symm.trans hslot')]
  · rw [replace?_eq_some_iff, route_replace? h, Value.replaceAt?_replaceAt? hwrite]
    exact Value.replaceAt?_self hread
  · rw [resolve?_eq_descend?, resolve?_eq_descend?, route_replace? h]
    exact Value.descend?_replaceAt?_of_apart hwrite hslot hplace hapart

/-- A field of a document in an array is overwritten and put back, and the field
that spells the path of that array does not see it. -/
theorem replace?_lens_nested :
    let d : Document := [("a.b", .int32 1),
      ("a", .document [("b", .array [.null, .document [("c", .int32 2)]])])]
    ∃ changed, d.replace? "a.b.1.c" (.string "x") = some changed ∧
      changed.resolve? "a.b.1.c" = some (.string "x") ∧
      changed.replace? "a.b.1.c" (.int32 2) = some d ∧
      changed.resolve? "a.b" = some (.int32 1) := by
  intro d
  obtain ⟨hsome, hlens⟩ := d.replace?_lens "a.b.1.c"
  obtain ⟨-, slot, hslot, -, hwrite⟩ := hlens (.int32 2) rfl
  obtain ⟨changed, hchanged⟩ := Option.isSome_iff_exists.mp ((hsome (.string "x")).trans rfl)
  obtain ⟨-, -, hreadw, hback, hframe⟩ := hwrite _ changed hchanged
  have hplace : d.locate? "a.b" = some [.field "a.b"] := by decide
  have hinside : d.locate? "a.b.1.c" = some [.field "a", .field "b", .item 1, .field "c"] := by
    decide
  obtain rfl := Option.some.inj (hslot.symm.trans hinside)
  refine ⟨changed, hchanged, hreadw, hback, ?_⟩
  rw [hframe "a.b" _ hplace ⟨by decide, by decide⟩]
  rfl

end Document

end DocStore
