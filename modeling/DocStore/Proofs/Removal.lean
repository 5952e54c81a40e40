import DocStore.Proofs.ReadBack
import DocStore.Proofs.Slots

/-!
# Removing what a path reads

Reading follows all segments of a path from the document down. Removing goes to
the owner first, which is what the path without its last segment reads, and then
takes the last segment out of it. Both come to the same place
(`Document.resolve?_of_parent`), so that what is removed is what was read and is
not read any more (`Document.remove?_exact`), unless a key spells the path of the
owner, dots and all: this key is the owner for removing, but not for reading.

In an array a null remains. And where a key that spelled the whole path has been
removed, what is read afterwards is what lies below the document under the same
segments.
-/

namespace DocStore

/-! ## Segments -/

namespace Path

theorem segments_of_parent?_none {path : String} (h : parent? path = none) :
    segments path = [path] := by
  unfold parent? at h
  cases hreverse : (segments path).reverse with
  | nil => exact absurd (List.reverse_eq_nil_iff.mp hreverse) (segments_ne_nil path)
  | cons last rest =>
      cases rest with
      | cons _ _ =>
          rw [hreverse] at h
          cases h
      | nil =>
          have hsegments : segments path = [last] := by
            rw [← List.reverse_reverse (segments path), hreverse, List.reverse_singleton]
          have hjoin := join_segments path
          rw [hsegments, join, String.intercalate_singleton] at hjoin
          rw [hsegments, hjoin]

theorem parent?_of_not_mem {path : String} (h : '.' ∉ path.toList) : parent? path = none := by
  cases hparent : parent? path with
  | none => rfl
  | some parent =>
      rw [eq_of_parent? hparent] at h
      simp at h

/-- The path of the owner is shorter. -/
theorem not_under_of_parent? {path owner leaf : String} (h : parent? path = some (owner, leaf)) :
    ¬ Under owner path := by
  intro hunder
  obtain ⟨rest, hrest⟩ := hunder.segments_eq
  rw [segments_of_parent? h, List.append_assoc] at hrest
  exact List.cons_ne_nil _ _ (List.self_eq_append_right.mp hrest)

end Path

open DocStore.Path

/-! ## Below a value -/

namespace Value

variable {v old new changed : Value} {segment : String} {path : List String}

theorem descend?_append (v : Value) (path rest : List String) :
    v.descend? (path ++ rest) = (v.descend? path).bind fun w => w.descend? rest := by
  induction path generalizing v with
  | nil => rfl
  | cons segment path ih =>
      rw [List.cons_append, descend?, descend?, Option.bind_assoc]
      exact Option.bind_congr fun child _ => ih child

/-- A child is taken out; in an array a null remains in its place. -/
def without : Value → String → Value
  | .document fields, leaf => .document (Document.erase fields leaf)
  | .array items, leaf => withChild (.array items) leaf .null
  | v, _ => v

theorem child?_without (h : v.child? segment = some old) :
    (v.without segment).child? segment = if v.isArray then some .null else none := by
  cases v with
  | document fields => exact Document.get?_erase_self fields segment
  | array items => exact child?_withChild_self h .null
  | _ => cases h

end Value

/-! ## In a document -/

namespace Document

/-- A key of the document spells the path of the owner. -/
def ownerShadows (d : Document) (path : String) : Bool :=
  (parent? path).any fun (owner, _) => d.shadows owner

/-- The path ends in an array. -/
def endsInArray (d : Document) (path : String) : Bool :=
  (parent? path).any fun (owner, _) => (d.resolve? owner).any Value.isArray

variable {d changed : Document} {path owner leaf : String} {new old v : Value}

theorem resolve?_of_parent (hget : d.get? path = none)
    (hparent : parent? path = some (owner, leaf)) (howner : d.shadows owner = false) :
    d.resolve? path = (d.resolve? owner).bind fun old => old.child? leaf := by
  rw [resolve?_of_not_shadows howner, resolve?, hget, segments_of_parent? hparent,
    Value.descend?_append]
  exact Option.bind_congr fun old _ => old.descend?_singleton leaf

theorem remove?_of_parent (hget : d.get? path = none)
    (hparent : parent? path = some (owner, leaf)) :
    d.remove? path = (d.resolve? owner).bind fun old => (old.child? leaf).bind fun v =>
      (d.replace? owner (old.without leaf)).map fun changed => (v, changed) := by
  rw [remove?, hget]
  simp only [hparent, Option.bind_eq_bind, Option.bind_some]
  refine Option.bind_congr fun old _ => ?_
  cases old with
  | document fields =>
      refine Option.bind_congr fun v _ => ?_
      rw [Option.map_eq_bind]
      rfl
  | array items =>
      rw [Value.child?, Option.bind_assoc]
      refine Option.bind_congr fun i hi => Option.bind_congr fun v _ => ?_
      rw [Value.without, Value.withChild, hi, Option.map_eq_bind]
      rfl
  | _ => rfl

/-- Reading and removing go to the same place: a key spells the path, or none spells the path of
the owner. -/
def LocatesAlike (d : Document) (path : String) : Prop :=
  d.contains path = true ∨ d.ownerShadows path = false

theorem LocatesAlike.not_shadows (h : d.LocatesAlike path) (hget : d.get? path = none)
    (hparent : parent? path = some (owner, leaf)) : d.shadows owner = false := by
  have hmissing : d.contains path = false := by rw [contains, hget, Option.isSome_none]
  simpa [ownerShadows, hparent] using h.resolve_left (by simp [hmissing])

/-- What is removed is what is read. -/
theorem fst_remove? (h : d.LocatesAlike path) : (d.remove? path).map (·.1) = d.resolve? path := by
  cases hget : d.get? path with
  | some v => rw [remove?, resolve?, hget, Option.map_some]
  | none =>
      cases hparent : parent? path with
      | none =>
          rw [remove?, resolve?, hget, segments_of_parent?_none hparent, Value.descend?_singleton,
            Value.child?, hget]
          simp [hparent]
      | some parent =>
          obtain ⟨owner, leaf⟩ := parent
          have howner := h.not_shadows hget hparent
          rw [remove?_of_parent hget hparent, resolve?_of_parent hget hparent howner,
            Option.map_bind]
          refine Option.bind_congr fun old hold => ?_
          obtain ⟨changed, hchanged⟩ := exists_replace? hold (old.without leaf)
          cases hchild : old.child? leaf <;> simp [hchild, hchanged]

/-- Below a key with dots lies what the descent finds. -/
theorem resolve?_erase_self (d : Document) (path : String) :
    (d.erase path).resolve? path =
      if '.' ∈ path.toList then (Value.document d).descend? (segments path) else none := by
  rw [resolve?, get?_erase_self]
  by_cases hdot : '.' ∈ path.toList
  · obtain ⟨first, rest, hsegments⟩ := exists_segments path
    have hfirst : first ≠ path := by
      rintro rfl
      exact not_mem_of_mem_segments (hsegments ▸ List.mem_cons_self ..) hdot
    rw [if_pos hdot, hsegments]
    exact descend?_erase_of_ne hfirst d rest
  · rw [if_neg hdot, segments_of_not_mem hdot]
    exact (Value.descend?_singleton ..).trans (get?_erase_self d path)

/-- What the owner has at the leaf after the removal is what the path reads. -/
theorem resolve?_remove?_of_parent (hget : d.get? path = none)
    (hparent : parent? path = some (owner, leaf)) (howner : d.shadows owner = false)
    (hremove : d.remove? path = some (v, changed)) :
    changed.resolve? path = if d.endsInArray path then some .null else none := by
  rw [remove?_of_parent hget hparent] at hremove
  obtain ⟨old, hold, hremove⟩ := Option.bind_eq_some_iff.mp hremove
  obtain ⟨child, hchild, hremove⟩ := Option.bind_eq_some_iff.mp hremove
  obtain ⟨_, hreplace, heq⟩ := Option.map_eq_some_iff.mp hremove
  obtain ⟨rfl, rfl⟩ := Prod.mk.inj heq
  have hwrite := replace?_eq_some_iff.mp hreplace
  rw [route_of_not_shadows howner] at hwrite
  have hread := Value.descend?_replaceAt?_self hwrite
  have hname := get?_replace? hreplace (not_under_of_parent? hparent)
  rw [resolve?, hname, hget, segments_of_parent? hparent, Value.descend?_append, hread,
    Option.bind_some, Value.descend?_singleton, Value.child?_without hchild]
  simp [endsInArray, hparent, hold]

/-- What is read afterwards. -/
theorem resolve?_remove?_self (h : d.LocatesAlike path)
    (hremove : d.remove? path = some (v, changed)) :
    changed.resolve? path =
      if d.shadows path then (Value.document d).descend? (segments path)
      else if d.endsInArray path then some .null else none := by
  cases hget : d.get? path with
  | some w =>
      obtain ⟨-, rfl⟩ : w = v ∧ d.erase path = changed := by
        simpa [remove?, hget] using hremove
      rw [resolve?_erase_self]
      by_cases hdot : '.' ∈ path.toList
      · have hshadows : d.shadows path = true := by simp [shadows, contains, hget, hdot]
        rw [if_pos hdot, if_pos hshadows]
      · simp [shadows, endsInArray, parent?_of_not_mem hdot, hdot]
  | none =>
      have hshadows : d.shadows path = false := by simp [shadows, contains, hget]
      rw [hshadows, if_neg Bool.false_ne_true]
      cases hparent : parent? path with
      | none => simp [remove?, hget, hparent] at hremove
      | some parent =>
          exact resolve?_remove?_of_parent hget hparent (h.not_shadows hget hparent) hremove

/-- Where nothing is read, nothing is removed. -/
theorem remove?_of_missing (h : d.LocatesAlike path) (hmissing : d.resolve? path = none) :
    d.remove? path = none ∧ d.unset path = d := by
  have hnone : d.remove? path = none := by
    rw [← fst_remove? h, Option.map_eq_none_iff] at hmissing
    exact hmissing
  exact ⟨hnone, by rw [unset, hnone]⟩

theorem resolve?_unset_self (h : d.LocatesAlike path) (harray : d.endsInArray path = false)
    (hbelow : d.shadows path = true → (Value.document d).descend? (segments path) = none) :
    (d.unset path).resolve? path = none := by
  cases hremove : d.remove? path with
  | none =>
      rw [unset, hremove, ← fst_remove? h, hremove]
      rfl
  | some removed =>
      rw [unset, hremove]
      refine (resolve?_remove?_self h hremove).trans ?_
      split
      · exact hbelow ‹_›
      · rw [harray, if_neg Bool.false_ne_true]

theorem WellFormed.unset (h : d.WellFormed) (path : String) : (d.unset path).WellFormed :=
  (edits_unset d path .null).wellFormed (List.forall_mem_singleton.mpr trivial) h

end Document

/-! ## The operator -/

section Unset

variable {d : Document} {path : String}

theorem Update.apply_unset (d : Document) (path : String) (operand : Value) :
    (Update.parse [("$unset", .document [(path, operand)])] >>= fun u => u.apply d) =
      .ok (if (d.unset path).same d then (d, false) else (d.unset path, true)) :=
  Update.apply_single .unset [(path, operand)] d

theorem Update.apply_unset_of_missing (h : d.LocatesAlike path) (hmissing : d.resolve? path = none)
    (operand : Value) :
    (Update.parse [("$unset", .document [(path, operand)])] >>= fun u => u.apply d) =
      .ok (d, !d.same d) := by
  rw [apply_unset, (Document.remove?_of_missing h hmissing).2]
  cases d.same d <;> rfl

/-- Nothing is read in the updated document, be it the old one because nothing has changed. -/
theorem Update.missing_of_apply_unset (hd : d.WellFormed)
    (hgone : (d.unset path).resolve? path = none) (operand : Value) :
    ∃ changed differs,
      (Update.parse [("$unset", .document [(path, operand)])] >>= fun u => u.apply d) =
        .ok (changed, differs) ∧ changed.resolve? path = none := by
  rw [apply_unset]
  split
  · rename_i hsame
    have hlike := Document.resolve?_of_same (hd.unset path) hd hsame path
    rw [hgone] at hlike
    exact ⟨d, false, rfl, hlike.eq_none⟩
  · exact ⟨_, _, rfl, hgone⟩

/-- What is removed is what is read, and then it is not read any more. -/
theorem Document.remove?_exact [Pattern.Engine] (hd : d.WellFormed) (h : d.LocatesAlike path) :
    (∀ v, (∃ rest, d.remove? path = some (v, rest)) ↔ d.resolve? path = some v) ∧
    (∀ v rest, d.remove? path = some (v, rest) → rest.resolve? path =
      if d.shadows path then (Value.document d).descend? (segments path)
      else if d.endsInArray path then some .null else none) ∧
    (d.resolve? path = none → d.remove? path = none ∧ ∀ operand, ∃ differs,
      (Update.parse [("$unset", .document [(path, operand)])] >>= fun u => u.apply d) =
        .ok (d, differs)) ∧
    (d.endsInArray path = false →
      (d.shadows path = true → (Value.document d).descend? (segments path) = none) →
      ∀ operand, ∃ changed differs,
        (Update.parse [("$unset", .document [(path, operand)])] >>= fun u => u.apply d) =
          .ok (changed, differs) ∧
        changed.resolve? path = none ∧
        ((keyRole path = .field ∨ keyRole path = .isolated) → ∀ settings, ∃ q,
          Filter.compile settings
            [(path, .value (.document [("$exists", .boolean false)]))] = .ok q ∧
            q.holds changed = true)) := by
  refine ⟨fun v => ?_, fun v rest => resolve?_remove?_self h, fun hmissing => ?_,
    fun harray hbelow operand => ?_⟩
  · rw [← fst_remove? h, Option.map_eq_some_iff]
    exact ⟨fun ⟨rest, hrest⟩ => ⟨_, hrest, rfl⟩, fun ⟨(_, rest), hrest, hv⟩ => ⟨rest, hv ▸ hrest⟩⟩
  · exact ⟨(remove?_of_missing h hmissing).1,
      fun operand => ⟨_, Update.apply_unset_of_missing h hmissing operand⟩⟩
  · have hgone := resolve?_unset_self h harray hbelow
    obtain ⟨changed, differs, happly, hread⟩ := Update.missing_of_apply_unset hd hgone operand
    refine ⟨changed, differs, happly, hread, fun hkey settings => ?_⟩
    obtain ⟨q, hq, hholds⟩ := Filter.compile_single hkey (compileValue_exists settings false)
    refine ⟨q, hq, hholds changed ?_⟩
    rw [hread]
    rfl

/-- Out of a document in an array, beside a key that spells a part of the path; and out of an
array. -/
theorem Document.remove?_exact_nested :
    let d : Document :=
      [("a", .document [("b", .array [.document [("c", .int32 1)], .int32 2])]),
        ("a.b", .int32 3), ("e", .array [.int32 4])]
    (∃ rest, d.remove? "a.b.0.c" = some (.int32 1, rest)) ∧
      (∃ changed differs q,
        (Update.parse [("$unset", .document [("a.b.0.c", .string "")])] >>= fun u => u.apply d) =
          .ok (changed, differs) ∧
        Filter.compile .default
          [("a.b.0.c", .value (.document [("$exists", .boolean false)]))] = .ok q ∧
        q.holds changed = true) ∧
      ∃ rest, d.remove? "e.+0" = some (.int32 4, rest) ∧ rest.resolve? "e.+0" = some .null := by
  intro d
  have hd : d.WellFormed := by
    simp [d, Document.WellFormed, Value.WellFormed, fieldsWellFormed, allWellFormed]
  have hdocument : d.LocatesAlike "a.b.0.c" := Or.inr (by decide)
  have harray : d.LocatesAlike "e.+0" := Or.inr (by decide)
  obtain ⟨hread, -, -, hunset⟩ := remove?_exact hd hdocument
  obtain ⟨hitem, hnull, -, -⟩ := remove?_exact hd harray
  refine ⟨(hread _).mpr rfl, ?_, ?_⟩
  · obtain ⟨changed, differs, happly, -, hfind⟩ := hunset (by decide) (by decide) (.string "")
    obtain ⟨q, hq, hholds⟩ := hfind (Or.inl (by decide)) .default
    exact ⟨changed, differs, q, happly, hq, hholds⟩
  · obtain ⟨rest, hrest⟩ := (hitem (.int32 4)).mpr rfl
    exact ⟨rest, hrest, (hnull _ rest hrest).trans rfl⟩

/-- A key that spells the path of the owner is not read, but removed from; a key that spells the
path lay over another field; under a number a filter does not look for a field. -/
theorem Document.remove?_not_exact :
    (∃ rest, remove? [("a.b", .document [("c", .int32 1)])] "a.b.c" = some (.int32 1, rest) ∧
      resolve? [("a.b", .document [("c", .int32 1)])] "a.b.c" = none) ∧
    (∃ rest, remove? [("a.b", .int32 1), ("a", .document [("b", .int32 2)])] "a.b" =
        some (.int32 1, rest) ∧ rest.resolve? "a.b" = some (.int32 2)) ∧
    (Update.parse [("$unset", .document [("0", .null)])] >>= fun u => u.apply [("0", .null)]) =
        .ok ([], true) ∧
      Filter.compile .default [("0", .value (.document [("$exists", .boolean false)]))] =
        .error (.unsupportedOperator "$exists") := by
  refine ⟨⟨[("a.b", .document [])], rfl, rfl⟩, ⟨[("a", .document [("b", .int32 2)])], rfl, rfl⟩,
    (Update.apply_unset _ _ _).trans rfl, ?_⟩
  cbv

end Unset

end DocStore
