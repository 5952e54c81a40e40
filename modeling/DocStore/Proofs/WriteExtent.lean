import DocStore.Proofs.Divergence

/-!
# How far a write reaches

`set` makes a new document or fails. What is behind it is a document that is
written in place, from the top down: a missing field is opened as an empty
document, an array grows, a null gives way to a document, and only then does the
write go on below, where it can still fail, with nothing ever taken back
(`Value.writeAt`). That comes to the same (`Document.write_eq`). For below what has
just been made nothing fails (`Value.exists_setAt_empty`): a write that fails has
come by existing documents and elements only.

A write that goes through leaves all that diverges from its path as it was, up to
the nulls that an array on its way has grown by (`Document.Extent`).
-/

namespace DocStore

open DocStore.Path

/-! ## In place -/

/-- Writes below a slot, keeps what it has written and answers whether it has come to the end. -/
def Value.writeAt : Value → String → List String → Value → Value × Except Error Unit
  | _, _, [], new => (new, .ok ())
  | .document fields, _, segment :: rest, new =>
      let slot := (Document.get? fields segment).getD (.document [])
      let below := slot.writeAt segment rest new
      (.document (Document.insert fields segment below.1), below.2)
  | .array items, owner, segment :: rest, new =>
      match index? segment with
      | none =>
          (.array items, .error (.invalidUpdate
            ("cannot create field '" ++ segment ++ "' in array '" ++ owner ++ "'")))
      | some i =>
          if maxArrayPadding < i - items.length then
            (.array items, .error (.invalidUpdate
              ("cannot pad array '" ++ owner ++ "' of length " ++ toString items.length
                ++ " up to index " ++ toString i)))
          else
            let padded := items ++ List.replicate (i + 1 - items.length) Value.null
            let slot := (padded[i]?.getD .null).orDocument
            let below := slot.writeAt segment rest new
            (.array (padded.set i below.1), below.2)
  | v, owner, segment :: rest, _ =>
      (v, .error (.invalidUpdate
        ("cannot create field '" ++ join (segment :: rest) ++ "' in element \x7b"
          ++ owner ++ ": " ++ v.text ++ "\x7d")))

/-- The document after the write, and the answer. -/
def Document.write (d : Document) (path : String) (new : Value) : Document × Except Error Unit :=
  match segments path with
  | [] => (d, .ok ())
  | key :: rest =>
      let below := ((d.get? key).getD (.document [])).writeAt key rest new
      (d.insert key below.1, below.2)

/-- What is left and answered if a step goes through or changes nothing. -/
def settled {α : Type} (old : α) : Except Error α → α × Except Error Unit
  | .ok changed => (changed, .ok ())
  | .error e => (old, .error e)

/-! ### Nothing fails below what is fresh -/

namespace Value

variable {v new : Value} {items : List Value} {owner : String} {path : List String} {e : Error}

theorem grown_eq_self {i : Nat} (h : items[i]? = some v) : grown items i v = items := by
  obtain ⟨hlt, rfl⟩ := List.getElem?_eq_some_iff.mp h
  rw [grown, Nat.sub_eq_zero_of_le hlt, List.replicate_zero, List.append_nil, List.set_getElem_self]

theorem exists_setAt_empty (owner : String) (path : List String) (new : Value) :
    ∃ changed, (document []).setAt owner path new = .ok changed := by
  induction path generalizing owner with
  | nil => exact ⟨new, by rw [setAt]⟩
  | cons segment rest ih =>
      obtain ⟨below, hbelow⟩ := ih segment
      have hslot : (Document.get? [] segment).getD (.document []) = .document [] := rfl
      rw [setAt, hslot, hbelow]
      exact ⟨_, rfl⟩

/-- A field below which a write fails is there. -/
theorem get?_of_setAt_error {fields : Document} {segment : String}
    (h : ((fields.get? segment).getD (.document [])).setAt owner path new = .error e) :
    fields.get? segment = some ((fields.get? segment).getD (.document [])) := by
  cases hget : fields.get? segment with
  | some w => rfl
  | none =>
      obtain ⟨changed, hchanged⟩ := exists_setAt_empty owner path new
      rw [hget] at h
      cases h.symm.trans hchanged

/-- An element below which a write fails is there and not null. -/
theorem getElem?_of_setAt_error {i : Nat}
    (h : (items[i]?.getD null).orDocument.setAt owner path new = .error e) :
    items[i]? = some (items[i]?.getD null).orDocument := by
  obtain ⟨changed, hchanged⟩ := exists_setAt_empty owner path new
  cases hitem : items[i]? with
  | none =>
      rw [hitem] at h
      cases h.symm.trans hchanged
  | some w =>
      cases w with
      | null =>
          rw [hitem] at h
          cases h.symm.trans hchanged
      | _ => rfl

/-- So a write in place that fails leaves the value as it was. -/
theorem writeAt_eq (v : Value) (owner : String) (path : List String) (new : Value) :
    v.writeAt owner path new = settled v (v.setAt owner path new) := by
  induction path generalizing v owner with
  | nil => rw [writeAt, setAt, settled]
  | cons segment rest ih =>
      cases v with
      | document fields =>
          rw [writeAt, setAt, ih]
          cases hbelow : ((Document.get? fields segment).getD (.document [])).setAt
              segment rest new with
          | ok below => rfl
          | error e =>
              have hkept := Document.insert_of_get? (get?_of_setAt_error hbelow)
              simp only [settled, Except.map, hkept]
      | array items =>
          rw [writeAt, setAt]
          cases index? segment with
          | none => rfl
          | some i =>
              by_cases hpadding : maxArrayPadding < i - items.length
              · simp only [if_pos hpadding, settled]
              · simp only [if_neg hpadding, ih, getD_padded]
                cases hbelow : (items[i]?.getD null).orDocument.setAt segment rest new with
                | ok below => rfl
                | error e =>
                    have hkept := grown_eq_self (getElem?_of_setAt_error hbelow)
                    rw [grown] at hkept
                    simp only [settled, Except.map, hkept]
      | _ => rfl

end Value

theorem Document.write_eq (d : Document) (path : String) (new : Value) :
    d.write path new = settled d (d.set path new) := by
  rw [write, set]
  cases segments path with
  | nil => rfl
  | cons key rest =>
      simp only [Value.writeAt_eq]
      cases hbelow : ((d.get? key).getD (.document [])).setAt key rest new with
      | ok below => rfl
      | error e =>
          have hkept := Document.insert_of_get? (Value.get?_of_setAt_error hbelow)
          simp only [settled, Except.map, hkept]

/-! ## What a write has changed -/

/-- An array after a write at an index. It is as long as the index asks for, and this length can
be counted, since an array in memory has fewer than `twoTo 63` items. -/
structure Value.GrownTo (items later : List Value) (i : Nat) : Prop where
  length_eq : later.length = max items.length (i + 1)
  kept : ∀ j < items.length, j ≠ i → later[j]? = items[j]?
  filled : ∀ j < i, items.length ≤ j → later[j]? = some .null
  padding_le : i - items.length ≤ maxArrayPadding
  next_le : items.length < twoTo 63 → i + 1 ≤ largestIndex

/-- What a write at a path has changed. -/
structure Document.Extent (d changed : Document) (path : String) : Prop where
  /-- The keys keep their order, and the only new one is the last. -/
  keys : ∃ first rest, segments path = first :: rest ∧
    changed.keys = if first ∈ d.keys then d.keys else d.keys ++ [first]
  /-- A path that diverges may only lead to a null that an array has grown by. -/
  others : ∀ other, Diverging path other → changed.resolve? other = d.resolve? other ∨
    (d.resolve? other = none ∧ changed.resolve? other = some .null ∧
      Value.Appends (.document d) (.document changed) (segments other))
  /-- The arrays on the way have grown up to the index. -/
  arrays : ∀ way segment rest items, segments path = way ++ segment :: rest →
    (Value.document d).descend? way = some (.array items) →
      ∃ i later, index? segment = some i ∧
        (Value.document changed).descend? way = some (.array later) ∧ Value.GrownTo items later i

namespace Value

variable {v new changed : Value} {items : List Value} {owner segment : String}
  {way rest : List String}

theorem grownTo_grown {i : Nat} (h : i - items.length ≤ maxArrayPadding) (below : Value) :
    GrownTo items (grown items i below) i where
  length_eq := length_grown items i below
  kept j hlt hne := (getElem?_grown_of_ne hne.symm items below).trans (if_pos hlt)
  filled j hlt hpast := by
    rw [getElem?_grown_of_ne (Nat.ne_of_gt hlt), if_neg (Nat.not_lt.mpr hpast),
      if_pos (Nat.le_of_lt hlt)]
  padding_le := h
  next_le hlength := by
    have hword : twoTo 63 + maxArrayPadding < largestIndex := by decide
    omega

theorem grownTo_of_setAt (h : v.setAt owner (way ++ segment :: rest) new = .ok changed)
    (hway : v.descend? way = some (.array items)) :
    ∃ i later, index? segment = some i ∧ changed.descend? way = some (.array later) ∧
      GrownTo items later i := by
  induction way generalizing v owner changed with
  | nil =>
      obtain rfl := Option.some.inj hway
      obtain ⟨i, below, hi, hpadding, -, rfl⟩ := setAt_array h
      exact ⟨i, _, hi, rfl, grownTo_grown hpadding below⟩
  | cons first way ih =>
      obtain ⟨slot, below, hbelow, hwritten, hslot, -⟩ := setAt_cons h
      obtain ⟨child, hchild, hway⟩ := Option.bind_eq_some_iff.mp hway
      rw [descend?, hwritten]
      rcases hslot with hread | ⟨-, hnull⟩
      · obtain rfl := Option.some.inj (hchild.symm.trans hread)
        exact ih hbelow hway
      · rw [hnull child hchild] at hway
        cases way <;> cases hway

end Value

namespace Document

variable {d changed : Document} {path : String} {new : Value}

theorem extent_of_set (h : d.set path new = .ok changed) : d.Extent changed path where
  keys := by
    obtain ⟨first, rest, slot, hsegments, -, rfl⟩ := set_cases h
    exact ⟨first, rest, hsegments, keys_insert d first slot⟩
  others _ := resolve?_set h
  arrays way segment rest items hsegments hway := by
    have hwrite := setAt_of_set h path
    rw [hsegments] at hwrite
    exact Value.grownTo_of_setAt hwrite hway

/-- A write in place that fails leaves the document as it was; one that goes through changes what
is on its path and nothing else. -/
theorem write_exact (d : Document) (path : String) (new : Value) :
    d.write path new = settled d (d.set path new) ∧
      (∀ e, (d.write path new).2 = .error e → (d.write path new).1 = d) ∧
      ∀ changed, d.write path new = (changed, .ok ()) → d.Extent changed path := by
  rw [write_eq]
  cases hset : d.set path new with
  | ok after =>
      refine ⟨rfl, fun e h => (nomatch h), fun changed h => ?_⟩
      obtain ⟨rfl, -⟩ := Prod.mk.inj h
      exact extent_of_set hset
  | error e => exact ⟨rfl, fun _ _ => rfl, fun changed h => nomatch (Prod.mk.inj h).2⟩

/-- Below a number nothing can be written; past the end of an array something can, and the array
grows by a null that is read under a path that diverges. -/
theorem write_exact_in_array :
    let d : Document := [("a", .array [.int32 1]), ("b", .document [("c", .null)])]
    (d.write "a.0.c.d" .null).1 = d ∧
      ∃ changed, d.write "a.+2.c" (.int32 3) = (changed, .ok ()) ∧
        d.Extent changed "a.+2.c" ∧ changed.resolve? "a.1" = some .null := by
  intro d
  refine ⟨(write_exact d "a.0.c.d" .null).2.1 _ rfl,
    [("a", .array [.int32 1, .null, .document [("c", .int32 3)]]), ("b", .document [("c", .null)])],
    ?_, ?_, ?_⟩
  · rfl
  · exact (write_exact d "a.+2.c" (.int32 3)).2.2 _ rfl
  · rfl

end Document

end DocStore
