import DocStore.Proofs.Updates

/-!
# Writes at paths that diverge

Two paths diverge if, at some place that both have, their segments are
different keys and not the same index of an array either (`Path.Diverging`).
No write is seen from a path that diverges from its own: what is found there is
still found there afterwards, whatever the documents and arrays on the way
(`Edit.resolve?_eq`). By induction this holds of a run of writes
(`Edits.resolve?_eq`). All that `set` can add is a null in an array that it has
grown (`Document.resolve?_set`).

What `set` writes can be read at its path, unless a key of the document spells
the whole path, dots and all (`Document.shadows`). So after one field after the
other has been set, each of them reads back, if their paths diverge
(`UpdateOperator.resolve?_of_apply_set`).
-/

namespace DocStore

namespace Path

/-! ## Segments that name different places -/

/-- Different keys, and not the same index. -/
def Separate (a b : String) : Prop := a ≠ b ∧ ∀ i ∈ index? a, index? b ≠ some i

theorem Separate.symm {a b : String} (h : Separate a b) : Separate b a :=
  ⟨h.1.symm, fun i hb ha => h.2 i ha hb⟩

/-- At some place that both have, the segments name different places. -/
def Diverge : List String → List String → Prop
  | a :: as, b :: bs => Separate a b ∨ Diverge as bs
  | _, _ => False

def Diverging (path other : String) : Prop := Diverge (segments path) (segments other)

theorem Diverge.symm {as bs : List String} (h : Diverge as bs) : Diverge bs as := by
  induction as generalizing bs with
  | nil => exact h.elim
  | cons a as ih =>
      cases bs with
      | nil => exact h.elim
      | cons b bs => exact h.imp Separate.symm ih

theorem Diverging.symm {path other : String} (h : Diverging path other) : Diverging other path :=
  Diverge.symm h

theorem diverge_cons_self {a : String} {as bs : List String} :
    Diverge (a :: as) (a :: bs) ↔ Diverge as bs :=
  ⟨fun h => h.resolve_left fun hseparate => hseparate.1 rfl, Or.inr⟩

theorem not_diverge_append (as rest : List String) : ¬ Diverge (as ++ rest) as := by
  induction as with
  | nil => cases rest <;> exact id
  | cons a as ih => exact fun h => ih (diverge_cons_self.mp h)

/-- What diverges from a key, be it only by the segments that follow, is not
under it. -/
theorem not_under_of_diverge {path key : String} {leaf : List String}
    (h : Diverge (segments path ++ leaf) (segments key)) : ¬ Under path key := by
  intro hunder
  obtain ⟨rest, hrest⟩ := hunder.segments_eq
  rw [hrest, List.append_assoc] at h
  exact not_diverge_append _ _ h

theorem Diverging.not_under {path key : String} (h : Diverging path key) : ¬ Under path key := by
  unfold Diverging at h
  rw [← List.append_nil (segments path)] at h
  exact not_under_of_diverge h

instance (a b : String) : Decidable (Separate a b) := inferInstanceAs (Decidable (_ ∧ _))

instance decidableDiverge : (as bs : List String) → Decidable (Diverge as bs)
  | a :: as, b :: bs =>
      have := decidableDiverge as bs
      inferInstanceAs (Decidable (Separate a b ∨ Diverge as bs))
  | [], _ => inferInstanceAs (Decidable False)
  | _ :: _, [] => inferInstanceAs (Decidable False)

instance (path other : String) : Decidable (Diverging path other) :=
  inferInstanceAs (Decidable (Diverge _ _))

/-- An index may be written in more than one way. -/
example : Diverging "a.b" "a.c.d" ∧ ¬ Diverging "a.b" "a" ∧ ¬ Diverging "a.1" "a.+01" := by decide

/-! ### Dots -/

theorem not_mem_splitDots {cs segment : List Char} (h : segment ∈ splitDots cs) :
    '.' ∉ segment := by
  induction cs generalizing segment with
  | nil =>
      obtain rfl := List.mem_singleton.mp h
      exact List.not_mem_nil
  | cons c rest ih =>
      rw [splitDots] at h
      by_cases hc : c = '.'
      · rw [if_pos hc] at h
        rcases List.mem_cons.mp h with rfl | hrest
        · exact List.not_mem_nil
        · exact ih hrest
      · rw [if_neg hc] at h
        cases hsplit : splitDots rest with
        | nil => exact absurd hsplit (splitDots_ne_nil rest)
        | cons first others =>
            rw [hsplit] at h ih
            rcases List.mem_cons.mp h with rfl | hothers
            · rw [List.mem_cons, not_or]
              exact ⟨Ne.symm hc, ih (List.mem_cons_self ..)⟩
            · exact ih (List.mem_cons_of_mem _ hothers)

theorem not_mem_of_mem_segments {path segment : String} (h : segment ∈ segments path) :
    '.' ∉ segment.toList := by
  obtain ⟨cs, hcs, rfl⟩ := List.mem_map.mp h
  rw [String.toList_ofList]
  exact not_mem_splitDots hcs

theorem segments_of_cons {path key : String} {rest : List String}
    (h : segments path = key :: rest) : segments key = [key] :=
  segments_of_not_mem (not_mem_of_mem_segments (h ▸ List.mem_cons_self ..))

theorem exists_segments (path : String) : ∃ key rest, segments path = key :: rest :=
  List.exists_cons_of_ne_nil (segments_ne_nil path)

theorem segments_of_parent? {path owner leaf : String} (h : parent? path = some (owner, leaf)) :
    segments path = segments owner ++ [leaf] := by
  have hleaf : leaf ∈ segments path := by
    unfold parent? at h
    split at h
    · rename_i hreverse
      obtain ⟨-, rfl⟩ := Prod.mk.injEq .. |>.mp (Option.some.inj h)
      rw [← List.mem_reverse, hreverse]
      exact List.mem_cons_self ..
    · cases h
  rw [eq_of_parent? h, segments_append, segments_of_not_mem (not_mem_of_mem_segments hleaf)]

end Path

open DocStore.Path

/-! ## Below a value -/

namespace Value

variable {v child new changed found : Value} {segment other owner : String} {path key : List String}

theorem child?_withChild_of_separate (h : Separate segment other) (v child : Value) :
    (v.withChild segment child).child? other = v.child? other := by
  cases v with
  | document fields => exact Document.get?_insert_of_ne fields child h.1.symm
  | array items =>
      rw [withChild]
      split
      · rename_i i hi
        rw [child?, child?]
        cases hj : index? other with
        | none => rfl
        | some j =>
            have hij : i ≠ j := fun heq => h.2 i hi (heq ▸ hj)
            exact List.getElem?_set_ne hij
      · rfl
  | _ => rfl

/-- Overwriting a child is seen under a segment that reads this child, and
under no other. -/
theorem child?_withChild (h : v.child? segment = some child) (new : Value) (other : String) :
    (v.withChild segment new).child? other = v.child? other ∨
      v.child? other = some child ∧ (v.withChild segment new).child? other = some new := by
  cases v with
  | document fields =>
      by_cases heq : other = segment
      · subst heq
        exact Or.inr ⟨h, Document.get?_insert_self fields other new⟩
      · exact Or.inl (Document.get?_insert_of_ne fields new heq)
  | array items =>
      obtain ⟨i, hi, hitem⟩ := Option.bind_eq_some_iff.mp h
      simp only [withChild, hi, child?]
      cases hj : index? other with
      | none => exact Or.inl rfl
      | some j =>
          by_cases hij : i = j
          · subst hij
            have hlt : i < items.length := (List.getElem?_eq_some_iff.mp hitem).1
            exact Or.inr ⟨hitem, List.getElem?_set_self hlt⟩
          · exact Or.inl (List.getElem?_set_ne hij)
  | _ => cases h

/-- An overwriting below `path` that keeps what is found at other `leaf`s of
the overwritten value keeps what is found at the keys that diverge. -/
theorem descend?_replaceAt? {leaf : List String} (h : v.replaceAt? path new = some changed)
    (hnew : ∀ old, v.descend? path = some old → ∀ key found, Diverge leaf key →
      old.descend? key = some found → new.descend? key = some found)
    (hdiverge : Diverge (path ++ leaf) key) (hfound : v.descend? key = some found) :
    changed.descend? key = some found := by
  induction path generalizing v changed key with
  | nil =>
      obtain rfl := Option.some.inj h
      exact hnew v rfl key found hdiverge hfound
  | cons segment rest ih =>
      obtain ⟨child, below, hchild, hbelow, rfl⟩ := replaceAt?_cons_iff.mp h
      cases key with
      | nil => exact hdiverge.elim
      | cons first others =>
          rw [descend?] at hfound ⊢
          rcases hdiverge with hseparate | hdiverge
          · rwa [child?_withChild_of_separate hseparate]
          · rcases child?_withChild hchild below first with hother | ⟨hread, hwritten⟩
            · rwa [hother]
            · rw [hread] at hfound
              rw [hwritten]
              refine ih hbelow (fun old hold => hnew old ?_) hdiverge hfound
              rw [descend?, hchild]
              exact hold

/-! ### Writing -/

/-- An array after a write at an index, which nulls fill it up to. -/
def grown (items : List Value) (i : Nat) (below : Value) : List Value :=
  (items ++ List.replicate (i + 1 - items.length) null).set i below

theorem length_grown (items : List Value) (i : Nat) (below : Value) :
    (grown items i below).length = max items.length (i + 1) := by
  rw [grown, List.length_set, List.length_append, List.length_replicate]
  omega

theorem getElem?_padded (items : List Value) (i j : Nat) :
    (items ++ List.replicate (i + 1 - items.length) null)[j]? =
      if j < items.length then items[j]? else if j ≤ i then some null else none := by
  by_cases hold : j < items.length
  · rw [if_pos hold, List.getElem?_append_left hold]
  · rw [if_neg hold, List.getElem?_append_right (Nat.le_of_not_lt hold), List.getElem?_replicate]
    by_cases hpad : j ≤ i
    · rw [if_pos hpad, if_pos (by omega)]
    · rw [if_neg hpad, if_neg (by omega)]

/-- A place that is filled up reads as one that is missing. -/
theorem getD_padded (items : List Value) (i : Nat) :
    (items ++ List.replicate (i + 1 - items.length) null)[i]?.getD null = items[i]?.getD null := by
  rw [getElem?_padded]
  by_cases hlt : i < items.length
  · rw [if_pos hlt]
  · rw [if_neg hlt, if_pos (Nat.le_refl i), List.getElem?_eq_none (Nat.le_of_not_lt hlt)]
    rfl

theorem getElem?_grown_self (items : List Value) (i : Nat) (below : Value) :
    (grown items i below)[i]? = some below := by
  have hlength := length_grown items i below
  rw [grown, List.length_set] at hlength
  exact List.getElem?_set_self (by omega)

theorem getElem?_grown_of_ne {i j : Nat} (h : i ≠ j) (items : List Value) (below : Value) :
    (grown items i below)[j]? =
      if j < items.length then items[j]? else if j ≤ i then some null else none :=
  (List.getElem?_set_ne h).trans (getElem?_padded items i j)

/-- A write into an array goes below the element, or below a fresh document where there is none
or a null. -/
theorem setAt_array {items : List Value} {rest : List String}
    (h : (array items).setAt owner (segment :: rest) new = .ok changed) :
    ∃ i below, index? segment = some i ∧ i - items.length ≤ maxArrayPadding ∧
      (items[i]?.getD null).orDocument.setAt segment rest new = .ok below ∧
      changed = .array (grown items i below) := by
  rw [setAt] at h
  split at h
  · cases h
  · rename_i i hi
    split at h
    · cases h
    · rename_i hpadding
      obtain ⟨below, hbelow, rfl⟩ := map_eq_ok_iff.mp h
      rw [getD_padded] at hbelow
      exact ⟨i, below, hi, Nat.le_of_not_lt hpadding, hbelow, rfl⟩

/-- The key leads to a place past the end of an array, and the array has grown to have it. -/
def Appends (v changed : Value) (key : List String) : Prop :=
  ∃ way leaf items later i, key = way ++ [leaf] ∧ v.descend? way = some (.array items) ∧
    changed.descend? way = some (.array later) ∧ index? leaf = some i ∧
    items.length ≤ i ∧ i < later.length

theorem Appends.cons {below : Value} (h : Appends child below key)
    (hchild : v.child? segment = some child) (hbelow : changed.child? segment = some below) :
    Appends v changed (segment :: key) := by
  obtain ⟨way, leaf, items, later, i, rfl, hitems, hlater, hi⟩ := h
  refine ⟨segment :: way, leaf, items, later, i, rfl, ?_, ?_, hi⟩
  · rw [descend?, hchild]
    exact hitems
  · rw [descend?, hbelow]
    exact hlater

theorem not_appends_empty : ¬ Appends (document []) changed key := by
  rintro ⟨way, leaf, items, later, i, -, hitems, -⟩
  cases way <;> cases hitems

/-- A step of a write goes below a slot, which is what the segment reads, or is fresh where
nothing or a null is read. Any other segment reads what it read before, or the slot as well, or
a null that an array has grown by. -/
theorem setAt_cons {rest : List String}
    (h : v.setAt owner (segment :: rest) new = .ok changed) :
    ∃ slot below, slot.setAt segment rest new = .ok below ∧ changed.child? segment = some below ∧
      (v.child? segment = some slot ∨
        slot = .document [] ∧ ∀ child ∈ v.child? segment, child = .null) ∧
      ∀ other, changed.child? other = v.child? other ∨
        (¬ Separate segment other ∧ v.child? other = v.child? segment ∧
          changed.child? other = some below) ∨
        (v.child? other = none ∧ changed.child? other = some .null ∧
          Appends v changed [other]) := by
  cases v with
  | document fields =>
      rw [setAt] at h
      obtain ⟨below, hbelow, rfl⟩ := map_eq_ok_iff.mp h
      have hself := Document.get?_insert_self fields segment below
      refine ⟨_, below, hbelow, hself, ?_, fun other => ?_⟩
      · rw [child?]
        cases hget : Document.get? fields segment with
        | none => exact Or.inr ⟨rfl, fun _ hchild => nomatch hchild⟩
        | some w => exact Or.inl rfl
      · by_cases heq : other = segment
        · subst heq
          exact Or.inr (Or.inl ⟨fun hseparate => hseparate.1 rfl, rfl, hself⟩)
        · exact Or.inl (Document.get?_insert_of_ne fields below heq)
  | array items =>
      obtain ⟨i, below, hi, -, hbelow, rfl⟩ := setAt_array h
      have hchild : ∀ {other j}, index? other = some j →
          (array items).child? other = items[j]? ∧
            (array (grown items i below)).child? other = (grown items i below)[j]? :=
        fun hj => by simp only [child?, hj, Option.bind_some, and_self]
      have hself := (hchild hi).2.trans (getElem?_grown_self items i below)
      refine ⟨_, below, hbelow, hself, ?_, fun other => ?_⟩
      · rw [(hchild hi).1]
        cases hitem : items[i]? with
        | none => exact Or.inr ⟨rfl, fun _ hread => nomatch hread⟩
        | some w =>
            cases w with
            | null => exact Or.inr ⟨rfl, fun _ hread => (Option.mem_some.mp hread).symm⟩
            | _ => exact Or.inl rfl
      · cases hj : index? other with
        | none => exact Or.inl (by rw [child?, child?, hj]; rfl)
        | some j =>
            obtain ⟨hold, hnew⟩ := hchild hj
            by_cases hij : i = j
            · subst hij
              refine Or.inr (Or.inl ⟨fun hseparate => hseparate.2 i hi hj, ?_, ?_⟩)
              · exact hold.trans (hchild hi).1.symm
              · exact hnew.trans (getElem?_grown_self items i below)
            · rw [hold, hnew, getElem?_grown_of_ne hij]
              by_cases hlt : j < items.length
              · exact Or.inl (if_pos hlt)
              · rw [if_neg hlt, List.getElem?_eq_none (Nat.le_of_not_lt hlt)]
                by_cases hpad : j ≤ i
                · rw [if_pos hpad]
                  have hlength := length_grown items i below
                  exact Or.inr (Or.inr ⟨rfl, rfl, [], other, items, _, j, rfl, rfl, rfl, hj,
                    Nat.le_of_not_lt hlt, by omega⟩)
                · exact Or.inl (if_neg hpad)
  | _ => cases h

/-- What has been written is read. -/
theorem descend?_setAt_self (h : v.setAt owner path new = .ok changed) :
    changed.descend? path = some new := by
  induction path generalizing v owner changed with
  | nil =>
      rw [setAt] at h
      exact congrArg some (Except.ok.inj h).symm
  | cons segment rest ih =>
      obtain ⟨slot, below, hbelow, hchild, -⟩ := setAt_cons h
      rw [descend?, hchild]
      exact ih hbelow

/-- A key that diverges leads to what it led to before; only where an array has grown, a null is
found that was not there. -/
theorem descend?_setAt (h : v.setAt owner path new = .ok changed) (hdiverge : Diverge path key) :
    changed.descend? key = v.descend? key ∨
      (v.descend? key = none ∧ changed.descend? key = some .null ∧ Appends v changed key) := by
  induction path generalizing v owner changed key with
  | nil => exact hdiverge.elim
  | cons segment rest ih =>
      obtain ⟨slot, below, hbelow, -, hslot, hothers⟩ := setAt_cons h
      cases key with
      | nil => exact hdiverge.elim
      | cons first others =>
          simp only [descend?]
          rcases hothers first with hkept | ⟨hsame, hread, hwritten⟩ | ⟨hnone, hnull, happends⟩
          · exact Or.inl (by rw [hkept])
          · have hdiverge := hdiverge.resolve_left hsame
            rw [hwritten, hread]
            rcases hslot with hchild | ⟨rfl, hnull⟩
            · rw [hchild]
              rcases ih hbelow hdiverge with hkept | ⟨hnone, hnull, happends⟩
              · exact Or.inl hkept
              · exact Or.inr ⟨hnone, hnull, happends.cons (hread.trans hchild) hwritten⟩
            · -- Nothing is found below a null or a fresh document, and the key goes on.
              have hfresh := (ih hbelow hdiverge).resolve_right
                fun happended => not_appends_empty happended.2.2
              refine Or.inl (hfresh.trans ?_)
              cases others with
              | nil => cases rest <;> exact hdiverge.elim
              | cons second others =>
                  cases hchild : v.child? segment with
                  | none => rfl
                  | some child => rw [hnull child hchild]; rfl
          · cases others with
            | nil => exact Or.inr (by rw [hnone, hnull]; exact ⟨rfl, rfl, happends⟩)
            | cons second others => exact Or.inl (by rw [hnone, hnull]; rfl)

end Value

/-! ## In a document -/

namespace Document

variable {d changed : Document} {path key : String} {new found : Value}

theorem descend?_insert_of_ne {first key : String} (h : first ≠ key) (d : Document) (v : Value)
    (rest : List String) : (Value.document (d.insert key v)).descend? (first :: rest) =
      (Value.document d).descend? (first :: rest) :=
  congrArg (Option.bind · _) (get?_insert_of_ne d v h)

theorem descend?_erase_of_ne {first key : String} (h : first ≠ key) (d : Document)
    (rest : List String) : (Value.document (d.erase key)).descend? (first :: rest) =
      (Value.document d).descend? (first :: rest) :=
  congrArg (Option.bind · _) (get?_erase_of_ne d h)

/-- A field is found as before if its whole name is written on no other field
and what is found on the way down is found as before. -/
theorem resolve?_of_descend? (hname : changed.get? key = d.get? key)
    (hdescend : ∀ {found}, (Value.document d).descend? (segments key) = some found →
      (Value.document changed).descend? (segments key) = some found)
    (hfound : d.resolve? key = some found) : changed.resolve? key = some found := by
  unfold resolve? at hfound ⊢
  rw [hname]
  cases hget : d.get? key with
  | some v => rwa [hget] at hfound
  | none =>
      rw [hget] at hfound
      exact hdescend hfound

theorem setAt_of_set (h : d.set path new = .ok changed) (owner : String) :
    (Value.document d).setAt owner (segments path) new = .ok (.document changed) := by
  obtain ⟨first, rest, slot, hsegments, hslot, rfl⟩ := set_cases h
  rw [hsegments, Value.setAt, hslot]
  rfl

/-- What is read under a path that diverges is what was read before, or a null that an array has
grown by. -/
theorem resolve?_set (h : d.set path new = .ok changed) (hdiverge : Diverging path key) :
    changed.resolve? key = d.resolve? key ∨
      (d.resolve? key = none ∧ changed.resolve? key = some .null ∧
        Value.Appends (.document d) (.document changed) (segments key)) := by
  have hname := get?_set h hdiverge.not_under
  unfold resolve?
  rw [hname]
  cases d.get? key with
  | some v => exact Or.inl rfl
  | none => exact Value.descend?_setAt (setAt_of_set h path) hdiverge

theorem resolve?_replace? (leaf : List String) (h : d.replace? path new = some changed)
    (hnew : ∀ old, d.resolve? path = some old → ∀ key found, Diverge leaf key →
      old.descend? key = some found → new.descend? key = some found)
    (hdiverge : Diverge (segments path ++ leaf) (segments key))
    (hfound : d.resolve? key = some found) : changed.resolve? key = some found := by
  refine resolve?_of_descend? (get?_replace? h (not_under_of_diverge hdiverge)) ?_ hfound
  intro found hfound
  unfold replace? at h
  split at h
  · rename_i hcontains
    obtain rfl := Option.some.inj h
    obtain ⟨old, hold⟩ := Option.isSome_iff_exists.mp hcontains
    obtain ⟨first, rest, hkey⟩ := exists_segments key
    rw [hkey] at hdiverge hfound ⊢
    by_cases heq : first = path
    · -- The key leads through the overwritten field.
      subst heq
      rw [segments_of_cons hkey, List.singleton_append, diverge_cons_self] at hdiverge
      have hread : old.descend? rest = some found := by
        rw [Value.descend?, Value.child?, hold] at hfound
        exact hfound
      have hresolve : d.resolve? first = some old := by rw [resolve?, hold]
      rw [Value.descend?, Value.child?, get?_insert_self]
      exact hnew old hresolve rest found hdiverge hread
    · rwa [descend?_insert_of_ne heq]
  · rename_i hmissing
    have hnone : d.get? path = none := by simpa [contains] using hmissing
    split at h
    · rename_i result hresult
      obtain rfl := Option.some.inj h
      refine Value.descend?_replaceAt? hresult (fun old hold => hnew old ?_) hdiverge hfound
      rw [resolve?, hnone]
      exact hold
    · cases h

theorem resolve?_remove? {removed : Value} (h : d.remove? path = some (removed, changed))
    (hdiverge : Diverging path key) (hfound : d.resolve? key = some found) :
    changed.resolve? key = some found := by
  rcases remove?_cases h with ⟨-, rfl⟩ |
    ⟨owner, leaf, old, left, hparent, hold, hreplace, hleft⟩
  · have hname : key ≠ path := fun heq => hdiverge.not_under (Or.inl heq.symm)
    refine resolve?_of_descend? (get?_erase_of_ne d hname) ?_ hfound
    intro found hfound
    obtain ⟨first, rest, hkey⟩ := exists_segments key
    unfold Diverging at hdiverge
    rw [hkey] at hdiverge hfound ⊢
    by_cases heq : first = path
    · subst heq
      rw [segments_of_cons hkey, diverge_cons_self] at hdiverge
      exact hdiverge.elim
    · rwa [descend?_erase_of_ne heq]
  · unfold Diverging at hdiverge
    rw [segments_of_parent? hparent] at hdiverge
    refine resolve?_replace? [leaf] hreplace ?_ hdiverge hfound
    intro old' hold' key found hleaf hread
    obtain rfl := Option.some.inj (hold.symm.trans hold')
    cases key with
    | nil => exact hleaf.elim
    | cons first rest =>
        have hseparate : Separate leaf first := hleaf.resolve_right (by cases rest <;> exact id)
        rcases hleft with ⟨fields, rfl, -, rfl⟩ | ⟨items, i, rfl, hi, -, rfl⟩
        · rwa [descend?_erase_of_ne hseparate.1.symm]
        · have hwrite : Value.array (items.set i .null) =
              (Value.array items).withChild leaf .null := by rw [Value.withChild, hi]
          rw [hwrite, Value.descend?, Value.child?_withChild_of_separate hseparate]
          exact hread

end Document

/-! ## Runs of writes -/

/-- What is found at a path is still found there after a write at a path that
diverges from it. -/
theorem Edit.resolve?_eq {path key : String} {operand found : Value} {d changed : Document}
    (h : Edit path operand d changed) (hdiverge : Diverging path key)
    (hfound : d.resolve? key = some found) : changed.resolve? key = some found := by
  cases h with
  | set _ h =>
      rcases Document.resolve?_set h hdiverge with hkept | ⟨hnone, -⟩
      · exact hkept.trans hfound
      · cases hnone.symm.trans hfound
  | replace _ h =>
      refine Document.resolve?_replace? [] h (fun _ _ _ _ hleaf => hleaf.elim) ?_ hfound
      rwa [List.append_nil]
  | remove h => exact Document.resolve?_remove? h hdiverge hfound

theorem Edits.resolve?_eq {fields : List (String × Value)} {d changed : Document}
    (h : Edits fields d changed) {key : String} {found : Value}
    (hdiverge : ∀ field ∈ fields, Diverging field.1 key) (hfound : d.resolve? key = some found) :
    changed.resolve? key = some found := by
  induction h with
  | refl => exact hfound
  | tail _ hedit ih =>
      obtain ⟨field, hmem, hedit⟩ := hedit
      exact hedit.resolve?_eq (hdiverge field hmem) ih

/-! ## Fields that are set -/

namespace Document

/-- A key of the document spells the path, dots and all: reading goes no
further. -/
def shadows (d : Document) (path : String) : Bool := path.toList.contains '.' && d.contains path

variable {d changed : Document} {path : String} {new : Value}

/-- Otherwise nothing gets in the way of the descent. -/
theorem resolve?_of_not_shadows (h : d.shadows path = false) :
    d.resolve? path = (Value.document d).descend? (segments path) := by
  unfold resolve?
  cases hget : d.get? path with
  | none => rfl
  | some v =>
      have hplain : '.' ∉ path.toList := by simpa [shadows, contains, hget] using h
      rw [segments_of_not_mem hplain, Value.descend?, Value.child?, hget]
      rfl

/-- What is written has a key without dots. -/
theorem shadows_set (h : d.set path new = .ok changed) (key : String) :
    changed.shadows key = d.shadows key := by
  obtain ⟨first, rest, slot, hsegments, -, rfl⟩ := set_cases h
  by_cases hkey : key = first
  · have hfirst : '.' ∉ first.toList :=
      not_mem_of_mem_segments (hsegments ▸ List.mem_cons_self ..)
    simp [shadows, hkey, hfirst]
  · rw [shadows, shadows, contains, contains, get?_insert_of_ne d slot hkey]

theorem resolve?_set_self (h : d.shadows path = false) (hset : d.set path new = .ok changed) :
    changed.resolve? path = some new := by
  rw [resolve?_of_not_shadows ((shadows_set hset path).trans h)]
  exact Value.descend?_setAt_self (setAt_of_set hset path)

end Document

/-- Fields that are set one after the other all read back, unless a key spells
their path. -/
theorem UpdateOperator.resolve?_of_apply_set {d changed : Document} {fields : List (String × Value)}
    (h : UpdateOperator.set.apply d fields = .ok changed)
    (hdiverge : fields.Pairwise fun a b => Diverging a.1 b.1) :
    ∀ field ∈ fields, d.shadows field.1 = false → changed.resolve? field.1 = some field.2 := by
  induction fields generalizing d with
  | nil => exact List.forall_mem_nil _
  | cons field rest ih =>
      obtain ⟨after, hset, h⟩ := bind_eq_ok_iff.mp h
      obtain ⟨hfirst, hrest⟩ := List.pairwise_cons.mp hdiverge
      refine List.forall_mem_cons.mpr ⟨fun hshadow => ?_, fun other hother hshadow => ?_⟩
      · have hread : after.resolve? field.1 = some field.2 :=
          Document.resolve?_set_self hshadow hset
        exact (edits_apply h).resolve?_eq (fun other hother => (hfirst other hother).symm) hread
      · exact ih h hrest other hother ((Document.shadows_set hset other.1).trans hshadow)

end DocStore
