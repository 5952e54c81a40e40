import DocStore.Path
import DocStore.Proofs.Fields

/-!
# What a write at a path leaves alone

`Path.Under path key`: the path is the key, or leads below it. The first
segment of a path is such a key (`Path.under_of_segments`), and what is under
a key by its owner is under it by itself (`Path.Under.of_parent`), so each of
the three writes - `set`, `replace?` and `remove?` - leaves every field alone
that its path is not under, whatever way it takes through the document
(`Document.get?_set`, `get?_replace?`, `get?_remove?`).

The same three writes keep a document well formed if what they write is.
-/

namespace DocStore

/-! ## Segments -/

namespace Path

theorem splitDots_ne_nil (cs : List Char) : splitDots cs ≠ [] := by
  cases cs with
  | nil => simp [splitDots]
  | cons c rest =>
      rw [splitDots]
      split
      · simp
      · split <;> simp

theorem intercalate_splitDots (cs : List Char) :
    ['.'].intercalate (splitDots cs) = cs := by
  induction cs with
  | nil => rfl
  | cons c rest ih =>
      rw [splitDots]
      cases hsplit : splitDots rest with
      | nil => exact absurd hsplit (splitDots_ne_nil rest)
      | cons segment others =>
          rw [hsplit] at ih
          by_cases hc : c = '.'
          · rw [if_pos hc, List.intercalate_cons_cons, ih, hc]
            rfl
          · rw [if_neg hc]
            cases others with
            | nil =>
                rw [List.intercalate_singleton] at ih ⊢
                rw [ih]
            | cons second others =>
                rw [List.intercalate_cons_cons] at ih ⊢
                rw [← ih]
                rfl

theorem segments_ne_nil (path : String) : segments path ≠ [] := by
  simp [segments, splitDots_ne_nil]

/-- Nothing is lost in the cutting. -/
theorem join_segments (path : String) : join (segments path) = path := by
  apply String.toList_injective
  have hcut : ((splitDots path.toList).map String.ofList).map String.toList
      = splitDots path.toList := by
    rw [List.map_map]
    exact List.map_id'' (fun _ => String.toList_ofList) _
  rw [join, segments, String.toList_intercalate, hcut]
  exact intercalate_splitDots _

/-- The path is the key, or a path below it. -/
def Under (path key : String) : Prop := path = key ∨ ∃ rest, path = key ++ "." ++ rest

/-- A path is under its first segment. -/
theorem under_of_segments {path key : String} {rest : List String}
    (h : segments path = key :: rest) : Under path key := by
  have hpath : path = join (key :: rest) := by rw [← h, join_segments]
  cases rest with
  | nil => exact Or.inl (hpath.trans String.intercalate_singleton)
  | cons second rest =>
      exact Or.inr ⟨join (second :: rest), hpath.trans String.intercalate_cons_cons⟩

theorem splitDots_of_not_mem {cs : List Char} (h : '.' ∉ cs) : splitDots cs = [cs] := by
  induction cs with
  | nil => rfl
  | cons c rest ih =>
      rw [List.mem_cons, not_or] at h
      rw [splitDots, if_neg (Ne.symm h.1), ih h.2]

theorem splitDots_append (cs rest : List Char) :
    splitDots (cs ++ '.' :: rest) = splitDots cs ++ splitDots rest := by
  induction cs with
  | nil => exact if_pos rfl
  | cons c cs ih =>
      rw [List.cons_append, splitDots, splitDots, ih]
      by_cases hc : c = '.'
      · rw [if_pos hc, if_pos hc, List.cons_append]
      · rw [if_neg hc, if_neg hc]
        cases hsplit : splitDots cs with
        | nil => exact absurd hsplit (splitDots_ne_nil cs)
        | cons segment others => rfl

theorem segments_append (path rest : String) :
    segments (path ++ "." ++ rest) = segments path ++ segments rest := by
  have hpath : (path ++ "." ++ rest).toList = path.toList ++ '.' :: rest.toList := by simp
  rw [segments, hpath, splitDots_append, List.map_append, segments, segments]

theorem segments_of_not_mem {key : String} (hkey : '.' ∉ key.toList) : segments key = [key] := by
  rw [segments, splitDots_of_not_mem hkey, List.map_singleton, String.ofList_toList]

theorem Under.segments_eq {path key : String} (h : Under path key) :
    ∃ rest, segments path = segments key ++ rest := by
  rcases h with rfl | ⟨rest, rfl⟩
  · exact ⟨[], (List.append_nil _).symm⟩
  · exact ⟨segments rest, segments_append key rest⟩

/-- A path is under no other key without dots. -/
theorem segments_of_under {path key : String} (hkey : '.' ∉ key.toList) (h : Under path key) :
    ∃ rest, segments path = key :: rest := by
  obtain ⟨rest, hrest⟩ := h.segments_eq
  exact ⟨rest, by rw [hrest, segments_of_not_mem hkey, List.singleton_append]⟩

theorem eq_of_parent? {path owner leaf : String} (h : parent? path = some (owner, leaf)) :
    path = owner ++ "." ++ leaf := by
  unfold parent? at h
  split at h
  · rename_i last first rest hreverse
    obtain ⟨rfl, rfl⟩ := Prod.mk.injEq .. |>.mp (Option.some.inj h)
    have hsegments : segments path = (first :: rest).reverse ++ [last] := by
      rw [← List.reverse_cons, ← hreverse, List.reverse_reverse]
    rw [← join_segments path, hsegments, join,
      String.intercalate_append_of_ne_nil (by simp) (by simp), String.intercalate_singleton]
    rfl
  · cases h

/-- What the owner of a path is under, the path is under. -/
theorem Under.of_parent {path owner leaf key : String}
    (hparent : parent? path = some (owner, leaf)) (h : Under owner key) : Under path key := by
  rw [eq_of_parent? hparent]
  rcases h with rfl | ⟨rest, rfl⟩
  · exact Or.inr ⟨leaf, rfl⟩
  · exact Or.inr ⟨rest ++ "." ++ leaf, by simp only [String.append_assoc]⟩

end Path

open DocStore.Path

/-! ## What a write is -/

/-- Overwriting overwrites a child, which has to be there. -/
theorem Value.replaceAt?_cons_iff {v new changed : Value} {segment : String} {rest : List String} :
    v.replaceAt? (segment :: rest) new = some changed ↔
      ∃ child below, v.child? segment = some child ∧ child.replaceAt? rest new = some below ∧
        v.withChild segment below = changed := by
  simp [replaceAt?, Option.bind_eq_some_iff]

namespace Document

variable {d changed : Document} {path : String} {new : Value}

/-- `set` writes below the field that the first segment names. -/
theorem set_cases (h : d.set path new = .ok changed) :
    ∃ first rest slot, segments path = first :: rest ∧
      ((d.get? first).getD (.document [])).setAt first rest new = .ok slot ∧
      changed = d.insert first slot := by
  unfold set at h
  cases hsegments : segments path with
  | nil => exact absurd hsegments (segments_ne_nil path)
  | cons first rest =>
      rw [hsegments] at h
      obtain ⟨slot, hslot, rfl⟩ := map_eq_ok_iff.mp h
      exact ⟨first, rest, slot, rfl, hslot, rfl⟩

/-- `replace?` writes the field of that name, or below the one that the first
segment names; either is there. -/
theorem replace?_cases (h : d.replace? path new = some changed) :
    ((∃ old, d.get? path = some old) ∧ changed = d.insert path new) ∨
      ∃ first rest child slot, segments path = first :: rest ∧ d.get? first = some child ∧
        child.replaceAt? rest new = some slot ∧ changed = d.insert first slot := by
  unfold replace? at h
  split at h
  · rename_i hcontains
    exact Or.inl ⟨Option.isSome_iff_exists.mp hcontains, (Option.some.inj h).symm⟩
  · cases hsegments : segments path with
    | nil => exact absurd hsegments (segments_ne_nil path)
    | cons first rest =>
        rw [hsegments] at h
        split at h
        · rename_i result hresult
          obtain rfl := Option.some.inj h
          obtain ⟨child, slot, hchild, hslot, heq⟩ := Value.replaceAt?_cons_iff.mp hresult
          obtain rfl := Value.document.inj heq
          exact Or.inr ⟨first, rest, child, slot, rfl, hchild, hslot, rfl⟩
        · cases h

/-- `remove?` erases the field of that name, or overwrites the owner of the
last segment by what is left of it. -/
theorem remove?_cases {removed : Value} (h : d.remove? path = some (removed, changed)) :
    (d.get? path = some removed ∧ changed = d.erase path) ∨
      ∃ owner leaf old left, parent? path = some (owner, leaf) ∧ d.resolve? owner = some old ∧
        d.replace? owner left = some changed ∧
        ((∃ fields, old = .document fields ∧ Document.get? fields leaf = some removed ∧
            left = .document (Document.erase fields leaf)) ∨
          ∃ items i, old = .array items ∧ index? leaf = some i ∧ items[i]? = some removed ∧
            left = .array (items.set i .null)) := by
  unfold remove? at h
  split at h
  · rename_i v hget
    obtain ⟨rfl, rfl⟩ := Prod.mk.injEq .. |>.mp (Option.some.inj h)
    exact Or.inl ⟨hget, rfl⟩
  · simp only [Option.bind_eq_bind, Option.bind_eq_some_iff] at h
    obtain ⟨⟨owner, leaf⟩, hparent, old, hold, h⟩ := h
    refine Or.inr ⟨owner, leaf, old, ?_⟩
    cases old with
    | document fields =>
        simp only [Option.bind_eq_some_iff] at h
        obtain ⟨v, hv, left, hleft, h⟩ := h
        obtain ⟨rfl, rfl⟩ := Prod.mk.injEq .. |>.mp (Option.some.inj h)
        exact ⟨_, hparent, hold, hleft, Or.inl ⟨fields, rfl, hv, rfl⟩⟩
    | array items =>
        simp only [Option.bind_eq_some_iff] at h
        obtain ⟨i, hi, v, hv, left, hleft, h⟩ := h
        obtain ⟨rfl, rfl⟩ := Prod.mk.injEq .. |>.mp (Option.some.inj h)
        exact ⟨_, hparent, hold, hleft, Or.inr ⟨items, i, rfl, hi, hv, rfl⟩⟩
    | _ => cases h

end Document

/-! ## Other fields -/

namespace Document

variable {d changed : Document} {path key : String} {new : Value}

theorem get?_set (h : d.set path new = .ok changed) (hkey : ¬ Under path key) :
    changed.get? key = d.get? key := by
  obtain ⟨first, rest, slot, hsegments, -, rfl⟩ := set_cases h
  refine get?_insert_of_ne d slot ?_
  rintro rfl
  exact hkey (under_of_segments hsegments)

theorem get?_replace? (h : d.replace? path new = some changed) (hkey : ¬ Under path key) :
    changed.get? key = d.get? key := by
  rcases replace?_cases h with ⟨-, rfl⟩ | ⟨first, rest, child, slot, hsegments, -, -, rfl⟩
  · exact get?_insert_of_ne d new fun heq => hkey (Or.inl heq.symm)
  · refine get?_insert_of_ne d slot ?_
    rintro rfl
    exact hkey (under_of_segments hsegments)

theorem get?_remove? {removed : Value} (h : d.remove? path = some (removed, changed))
    (hkey : ¬ Under path key) : changed.get? key = d.get? key := by
  rcases remove?_cases h with ⟨-, rfl⟩ | ⟨owner, leaf, old, left, hparent, -, hreplace, -⟩
  · exact get?_erase_of_ne d fun heq => hkey (Or.inl heq.symm)
  · exact get?_replace? hreplace fun howner => hkey (howner.of_parent hparent)

end Document

/-! ## Distinct names -/

theorem Document.WellFormed.slot {d : Document} (h : d.WellFormed) (key : String) :
    ((d.get? key).getD (.document [])).WellFormed := by
  cases hget : d.get? key with
  | none => exact WellFormed.nil
  | some w => exact h.get? hget

namespace Value

theorem WellFormed.child? {v child : Value} {segment : String} (h : v.WellFormed)
    (hchild : v.child? segment = some child) : child.WellFormed := by
  cases v with
  | document fields => exact Document.WellFormed.get? h hchild
  | array items =>
      obtain ⟨i, -, hi⟩ := Option.bind_eq_some_iff.mp hchild
      exact h.parts child (List.mem_of_getElem? hi)
  | _ => cases hchild

theorem WellFormed.descend? {segments : List String} {v found : Value} (h : v.WellFormed)
    (hfound : v.descend? segments = some found) : found.WellFormed := by
  induction segments generalizing v with
  | nil =>
      rw [Value.descend?] at hfound
      exact Option.some.inj hfound ▸ h
  | cons segment rest ih =>
      rw [Value.descend?] at hfound
      obtain ⟨child, hchild, hrest⟩ := Option.bind_eq_some_iff.mp hfound
      exact ih (h.child? hchild) hrest

theorem wellFormed_array_iff {items : List Value} :
    (array items).WellFormed ↔ ∀ v ∈ items, v.WellFormed := allWellFormed_iff

theorem wellFormed_array_set {items : List Value} (h : (array items).WellFormed) (i : Nat)
    {v : Value} (hv : v.WellFormed) : (array (items.set i v)).WellFormed := by
  refine wellFormed_array_iff.mpr fun w hw => ?_
  rcases List.mem_or_eq_of_mem_set hw with hold | rfl
  · exact h.parts w hold
  · exact hv

theorem WellFormed.withChild {v child : Value} (h : v.WellFormed) (hchild : child.WellFormed)
    (segment : String) : (v.withChild segment child).WellFormed := by
  cases v with
  | document fields => exact Document.WellFormed.insert h segment hchild
  | array items =>
      rw [Value.withChild]
      split
      · exact wellFormed_array_set h _ hchild
      · exact h
  | _ => exact h

theorem WellFormed.replaceAt? {segments : List String} {v new changed : Value}
    (h : v.WellFormed) (hnew : new.WellFormed)
    (hchanged : v.replaceAt? segments new = some changed) : changed.WellFormed := by
  induction segments generalizing v changed with
  | nil =>
      rw [Value.replaceAt?] at hchanged
      exact Option.some.inj hchanged ▸ hnew
  | cons segment rest ih =>
      obtain ⟨child, slot, hchild, hslot, rfl⟩ := Value.replaceAt?_cons_iff.mp hchanged
      exact h.withChild (ih (h.child? hchild) hslot) segment

theorem WellFormed.orDocument {v : Value} (h : v.WellFormed) : v.orDocument.WellFormed := by
  cases v with
  | null => exact Document.WellFormed.nil
  | _ => exact h

theorem WellFormed.element {items : List Value} (h : (array items).WellFormed) (i : Nat) :
    (items[i]?.getD null).orDocument.WellFormed := by
  refine WellFormed.orDocument ?_
  cases hitem : items[i]? with
  | none => trivial
  | some w => exact h.parts w (List.mem_of_getElem? hitem)

theorem wellFormed_padded {items : List Value} (h : (array items).WellFormed) (n : Nat) :
    (array (items ++ List.replicate n null)).WellFormed := by
  refine wellFormed_array_iff.mpr fun w hw => ?_
  rcases List.mem_append.mp hw with hold | hpad
  · exact h.parts w hold
  · rw [List.eq_of_mem_replicate hpad]
    trivial

theorem WellFormed.setAt {segments : List String} {v new changed : Value} {owner : String}
    (h : v.WellFormed) (hnew : new.WellFormed)
    (hchanged : v.setAt owner segments new = .ok changed) : changed.WellFormed := by
  fun_induction Value.setAt v owner segments new generalizing changed
  case case1 => exact Except.ok.inj hchanged ▸ hnew
  case case2 fields owner segment rest new slot ih =>
      obtain ⟨below, hbelow, rfl⟩ := map_eq_ok_iff.mp hchanged
      have hslot : slot.WellFormed := Document.WellFormed.slot h segment
      exact Document.WellFormed.insert h segment (ih hslot hnew hbelow)
  case case5 items owner segment rest new i hindex hpadding padded slot ih =>
      obtain ⟨below, hbelow, rfl⟩ := map_eq_ok_iff.mp hchanged
      have hpadded : (array padded).WellFormed := wellFormed_padded h _
      have hslot : slot.WellFormed := hpadded.element i
      exact wellFormed_array_set hpadded i (ih hslot hnew hbelow)
  all_goals cases hchanged

end Value

namespace Document

variable {d changed : Document} {path : String} {new : Value}

theorem WellFormed.resolve? (h : d.WellFormed) {v : Value} (hv : d.resolve? path = some v) :
    v.WellFormed := by
  unfold Document.resolve? at hv
  split at hv
  · rename_i w hget
    exact Option.some.inj hv ▸ h.get? hget
  · exact Value.WellFormed.descend? (v := .document d) h hv

theorem WellFormed.set (h : d.WellFormed) (hnew : new.WellFormed)
    (hset : d.set path new = .ok changed) : changed.WellFormed := by
  obtain ⟨first, rest, slot, -, hslot, rfl⟩ := set_cases hset
  exact h.insert first (Value.WellFormed.setAt (h.slot first) hnew hslot)

theorem WellFormed.replace? (h : d.WellFormed) (hnew : new.WellFormed)
    (hreplace : d.replace? path new = some changed) : changed.WellFormed := by
  rcases replace?_cases hreplace with ⟨-, rfl⟩ |
    ⟨first, rest, child, slot, -, hchild, hslot, rfl⟩
  · exact h.insert path hnew
  · exact h.insert first ((h.get? hchild).replaceAt? hnew hslot)

theorem WellFormed.remove? (h : d.WellFormed) {removed : Value}
    (hremove : d.remove? path = some (removed, changed)) : changed.WellFormed := by
  rcases remove?_cases hremove with ⟨-, rfl⟩ |
    ⟨owner, leaf, old, left, -, hold, hreplace, hleft⟩
  · exact h.erase path
  · have hinside : old.WellFormed := h.resolve? hold
    refine h.replace? ?_ hreplace
    rcases hleft with ⟨fields, rfl, -, rfl⟩ | ⟨items, i, rfl, -, -, rfl⟩
    · exact Document.WellFormed.erase hinside leaf
    · exact Value.wellFormed_array_set hinside i trivial

end Document

end DocStore
