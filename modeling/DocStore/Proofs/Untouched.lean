import DocStore.Proofs.Updates

/-!
# What an update leaves alone

Five operators write through three walks: along the whole path as one key, from the
first segment down, and to the owner of the last segment. Seen from the top of the
document there are only two ways in which a write ends: a field is written where it
stands or at the end, or a field is taken out. The name of that field is one that the
path is under, and if it is new then it is the first segment.

So a write keeps the fields that its path is not under, with their values and in their
order (`Document.Frame`). Frames are put together one after the other, and so an update
has the frame of all the fields that it names (`Update.apply_frame`). That a document
which comes out the same is not written back costs nothing: then nothing has changed.
-/

namespace DocStore

open DocStore.Path

/-! ## Fields that no path is under -/

theorem Path.under_iff_isPrefix {path key : String} :
    Under path key ↔ path = key ∨ (key ++ ".").toList <+: path.toList := by
  refine or_congr_right ⟨?_, ?_⟩
  · rintro ⟨rest, rfl⟩
    exact ⟨rest.toList, String.toList_append.symm⟩
  · rintro ⟨rest, hrest⟩
    refine ⟨String.ofList rest, String.toList_injective ?_⟩
    rw [String.toList_append, String.toList_ofList, hrest]

instance (path key : String) : Decidable (Under path key) :=
  decidable_of_iff _ Path.under_iff_isPrefix.symm

/-- None of the fields is written at the key or below it. -/
def sparedBy (fields : List (String × Value)) (key : String) : Prop :=
  ∀ field ∈ fields, ¬ Under field.1 key

instance (fields : List (String × Value)) : DecidablePred (sparedBy fields) :=
  fun key => inferInstanceAs (Decidable (∀ field ∈ fields, ¬ Under field.1 key))

/-- What writes at these fields leave alone. -/
structure Document.Frame (fields : List (String × Value)) (d changed : Document) : Prop where
  /-- A field that is spared is still there, or still missing. -/
  values : ∀ key, sparedBy fields key → changed.get? key = d.get? key
  /-- The fields that are spared are the same ones, in the same order. -/
  order : (changed.filter fun field => sparedBy fields field.1)
    = d.filter fun field => sparedBy fields field.1
  /-- A new key is the first segment of a field. -/
  fresh : ∀ key ∈ changed.keys, key ∈ d.keys ∨
    ∃ field ∈ fields, ∃ rest, segments field.1 = key :: rest

namespace Document

/-! ## The two ways in which a write ends -/

section Filter

variable (p : String → Bool) {key : String}

theorem filter_insert (d : Document) (v : Value) (h : p key = false) :
    (d.insert key v).filter (p ·.1) = d.filter (p ·.1) := by
  induction d with
  | nil => simp [insert, h]
  | cons field rest ih =>
      obtain ⟨k, w⟩ := field
      rw [insert]
      split
      · rename_i hk
        subst hk
        simp [h]
      · rw [List.filter_cons, List.filter_cons, ih]

theorem filter_erase (d : Document) (h : p key = false) :
    (d.erase key).filter (p ·.1) = d.filter (p ·.1) := by
  rw [erase, List.filter_filter]
  refine List.filter_congr fun field _ => ?_
  cases hp : p field.1 with
  | false => rfl
  | true =>
      have hne : field.1 ≠ key := by
        rintro rfl
        cases h.symm.trans hp
      simp [hne]

end Filter

theorem mem_keys_insert {d : Document} {key other : String} {v : Value}
    (h : other ∈ (d.insert key v).keys) : other ∈ d.keys ∨ other = key := by
  rw [keys_insert] at h
  split at h
  · exact Or.inl h
  · exact (List.mem_append.mp h).imp_right List.mem_singleton.mp

theorem mem_keys_of_mem_erase {d : Document} {key other : String}
    (h : other ∈ (d.erase key).keys) : other ∈ d.keys :=
  (List.filter_sublist.map _).subset h

namespace Frame

variable {fields : List (String × Value)} {d later changed : Document}

theorem refl (fields : List (String × Value)) (d : Document) : Frame fields d d :=
  ⟨fun _ _ => rfl, rfl, fun _ => Or.inl⟩

theorem trans (h : Frame fields d later) (h' : Frame fields later changed) :
    Frame fields d changed where
  values key hkey := (h'.values key hkey).trans (h.values key hkey)
  order := h'.order.trans h.order
  fresh key hkey := (h'.fresh key hkey).elim (h.fresh key) Or.inr

variable {field : String × Value} {key : String}

/-- What a field is under is not spared. -/
theorem decide_spared_eq_false (hfield : field ∈ fields) (hunder : Under field.1 key) :
    decide (sparedBy fields key) = false :=
  decide_eq_false fun hspared => hspared field hfield hunder

/-- A field is written whose name is there or the first segment of the path. -/
theorem of_insert (hfield : field ∈ fields) (hunder : Under field.1 key)
    (hkey : key ∈ d.keys ∨ ∃ rest, segments field.1 = key :: rest) (v : Value) :
    Frame fields d (d.insert key v) where
  values other hother := by
    refine get?_insert_of_ne d v ?_
    rintro rfl
    exact hother field hfield hunder
  order := filter_insert (sparedBy fields ·) d v (decide_spared_eq_false hfield hunder)
  fresh other hother := by
    rcases mem_keys_insert hother with hold | rfl
    · exact Or.inl hold
    · exact hkey.imp_right fun hfirst => ⟨field, hfield, hfirst⟩

theorem of_erase (hfield : field ∈ fields) (hunder : Under field.1 key) :
    Frame fields d (d.erase key) where
  values other hother := by
    refine get?_erase_of_ne d ?_
    rintro rfl
    exact hother field hfield hunder
  order := filter_erase (sparedBy fields ·) d (decide_spared_eq_false hfield hunder)
  fresh _ hother := Or.inl (mem_keys_of_mem_erase hother)

end Frame

/-! ## One write -/

variable {fields : List (String × Value)} {field : String × Value} {d changed : Document}
  {path : String} {new : Value}

theorem frame_set (hfield : field ∈ fields) (h : d.set field.1 new = .ok changed) :
    Frame fields d changed := by
  obtain ⟨first, rest, slot, hsegments, -, rfl⟩ := set_cases h
  exact .of_insert hfield (under_of_segments hsegments) (Or.inr ⟨rest, hsegments⟩) slot

/-- The path that is overwritten may be the one of the owner of a field. The field is under
whatever its owner is under. -/
theorem frame_replace? (hfield : field ∈ fields)
    (hunder : ∀ key, Under path key → Under field.1 key)
    (h : d.replace? path new = some changed) : Frame fields d changed := by
  rcases replace?_cases h with ⟨hold, rfl⟩ | ⟨first, rest, child, slot, hsegments, hchild, -, rfl⟩
  · exact .of_insert hfield (hunder path (Or.inl rfl)) (Or.inl (mem_keys_iff.mpr hold)) new
  · have hthere : first ∈ d.keys := mem_keys_iff.mpr ⟨child, hchild⟩
    exact .of_insert hfield (hunder first (under_of_segments hsegments)) (Or.inl hthere) slot

theorem frame_remove? {removed : Value} (hfield : field ∈ fields)
    (h : d.remove? field.1 = some (removed, changed)) : Frame fields d changed := by
  rcases remove?_cases h with ⟨-, rfl⟩ | ⟨owner, leaf, old, left, hparent, -, hreplace, -⟩
  · exact .of_erase hfield (Or.inl rfl)
  · exact frame_replace? hfield (fun _ howner => howner.of_parent hparent) hreplace

end Document

theorem Edit.frame {fields : List (String × Value)} {field : String × Value}
    {d changed : Document} (h : Edit field.1 field.2 d changed) (hfield : field ∈ fields) :
    Document.Frame fields d changed := by
  cases h with
  | set _ h => exact Document.frame_set hfield h
  | replace _ h => exact Document.frame_replace? hfield (fun _ => id) h
  | remove h => exact Document.frame_remove? hfield h

/-! ## Updates -/

theorem Edits.frame {fields : List (String × Value)} {d changed : Document}
    (h : Edits fields d changed) : Document.Frame fields d changed := by
  induction h with
  | refl => exact .refl fields d
  | tail _ hedit ih =>
      obtain ⟨field, hfield, hedit⟩ := hedit
      exact ih.trans (hedit.frame hfield)

/-- An update leaves the fields alone that it does not name, with their values and in their
order, and makes no field but at the start of a path. -/
theorem Update.apply_frame {u : Update} {d changed : Document} {differs : Bool}
    (h : u.apply d = .ok (changed, differs)) : Document.Frame u.fields d changed :=
  (edits_apply h).frame

/-- Every operator once: a key with a dot is written as it is, and `z` and `é` stay. -/
theorem Update.apply_frame_mixed :
    let d : Document := [("a", .int32 1), ("z", .double .nan), ("b.c", .int32 5),
      ("q", .array [.null]), ("é", .null)]
    let u : Update := .operators [(.set, [("n.x", .int32 1)]), (.increment, [("b.c", .int32 2)]),
      (.unset, [("a", .null)]), (.push, [("q", .int32 7)]), (.setOnInsert, [("q.0.y", .null)])]
    let changed : Document := [("z", .double .nan), ("b.c", .int32 7),
      ("q", .array [.document [("y", .null)], .int32 7]), ("é", .null),
      ("n", .document [("x", .int32 1)])]
    u.apply d = .ok (changed, true) ∧
      changed.get? "z" = d.get? "z" ∧ changed.get? "a.b" = d.get? "a.b" ∧
      (changed.filter fun field => sparedBy u.fields field.1) =
        [("z", .double .nan), ("é", .null)] := by
  intro d u changed
  have happly : u.apply d = .ok (changed, true) := by rfl
  have hframe := apply_frame happly
  refine ⟨happly, hframe.values "z" (by decide), hframe.values "a.b" (by decide), ?_⟩
  exact hframe.order.trans rfl

end DocStore
