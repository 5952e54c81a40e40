import DocStore.Kind
import DocStore.Proofs.SortOrder

/-!
# Sorted results

A specification compares two documents field by field, and the first field in
which they differ decides (`StandsBehind`). Documents that differ in none of its
fields are tied (`Tied`).

The order of values has its tangles, but not without a double or a text that
spells a number beside an integer (`Scalar.Tangle.double_or_spelled`). Among
documents that have no such values under the names of the specification
(`SortsPlainly`) the sort does what a sort is for: nothing stands before what it
stands behind, and tied documents stay in order (`sortDocuments_stable`).
-/

namespace DocStore

/-! ## Field by field -/

/-- How one document stands to another in a field of a specification. -/
def fieldOrder (field : String × Value) (a b : Document) : Ordering :=
  let order := sortCompare (a.resolve? field.1) (b.resolve? field.1)
  if isDescending field.2 then order.swap else order

/-- The first field in which the documents differ puts `a` behind `b`. -/
def StandsBehind (spec a b : Document) : Prop :=
  ∃ before field after, spec = before ++ field :: after ∧
    (∀ earlier ∈ before, fieldOrder earlier a b = .eq) ∧ fieldOrder field a b = .gt

/-- The documents differ in no field. -/
def Tied (spec a b : Document) : Prop :=
  ∀ field ∈ spec, sortCompare (a.resolve? field.1) (b.resolve? field.1) = .eq

theorem fieldOrder_eq_eq_iff {field : String × Value} {a b : Document} :
    fieldOrder field a b = .eq ↔
      sortCompare (a.resolve? field.1) (b.resolve? field.1) = .eq := by
  unfold fieldOrder
  cases isDescending field.2 with
  | false => rfl
  | true => exact Ordering.swap_eq_eq

theorem sortOrder_cons (field : String × Value) (spec a b : Document) :
    sortOrder (field :: spec) a b = (fieldOrder field a b).then (sortOrder spec a b) := rfl

theorem sortOrder_eq_eq_iff {spec a b : Document} : sortOrder spec a b = .eq ↔ Tied spec a b := by
  induction spec with
  | nil => exact ⟨fun _ => List.forall_mem_nil _, fun _ => rfl⟩
  | cons field rest ih =>
      rw [sortOrder_cons, Ordering.then_eq_eq, fieldOrder_eq_eq_iff, ih, Tied, Tied,
        List.forall_mem_cons]

theorem sortOrder_eq_gt_iff {spec a b : Document} :
    sortOrder spec a b = .gt ↔ StandsBehind spec a b := by
  induction spec with
  | nil =>
      refine ⟨fun h => Ordering.noConfusion h, ?_⟩
      rintro ⟨before, field, after, hspec, -⟩
      cases before <;> cases hspec
  | cons field rest ih =>
      rw [sortOrder_cons, Ordering.then_eq_gt, ih]
      constructor
      · rintro (hgt | ⟨htied, before, decisive, after, rfl, hbefore, hgt⟩)
        · exact ⟨[], field, rest, rfl, List.forall_mem_nil _, hgt⟩
        · exact ⟨field :: before, decisive, after, rfl,
            List.forall_mem_cons.mpr ⟨htied, hbefore⟩, hgt⟩
      · rintro ⟨before, decisive, after, hspec, hbefore, hgt⟩
        cases before with
        | nil =>
            obtain ⟨rfl, -⟩ := List.cons.inj hspec
            exact Or.inl hgt
        | cons first before =>
            obtain ⟨rfl, rfl⟩ := List.cons.inj hspec
            rw [List.forall_mem_cons] at hbefore
            exact Or.inr ⟨hbefore.1, before, decisive, after, rfl, hbefore.2, hgt⟩

/-! ## Without tangles -/

namespace Scalar

def isInteger : Scalar → Bool
  | integer _ => true
  | _ => false

/-- A text that counts as a number. -/
def isSpelled : Scalar → Bool
  | text s => (text s).real?.isSome
  | _ => false

/-- Every tangle has a double in it, or an integer and a text that counts as a number. -/
theorem Tangle.double_or_spelled {x y z : Scalar} (h : Tangle x y z) :
    (∃ d, number d ∈ [x, y, z]) ∨
      (∃ v ∈ [x, y, z], v.isInteger = true) ∧ ∃ w ∈ [x, y, z], w.isSpelled = true := by
  have hspelled : ∀ {s : String} {a : Int}, (text s).real? = some a →
      (text s).isSpelled = true := fun hs => Option.isSome_iff_exists.mpr ⟨_, hs⟩
  have hnumber : ∀ {v w : Scalar}, v.rank = 1 → v ∈ [x, y, z] → w.isSpelled = true →
      w ∈ [x, y, z] → (∃ d, number d ∈ [x, y, z]) ∨
        (∃ v ∈ [x, y, z], v.isInteger = true) ∧ ∃ w ∈ [x, y, z], w.isSpelled = true := by
    intro v w hrank hv hspelled hw
    cases v <;> cases hrank
    · exact Or.inr ⟨⟨_, hv, rfl⟩, w, hw, hspelled⟩
    · exact Or.inl ⟨_, hv⟩
  cases h with
  | rounded _ hy hm _ =>
      have hreal := hm.symm.trans (real?_integer _)
      cases y with
      | number d => exact Or.inl ⟨d, by simp⟩
      | text s => exact Or.inr ⟨⟨_, .head _, rfl⟩, _, by simp, hspelled hreal⟩
      | integer k => exact absurd rfl (hy k)
      | _ => cases hreal
  | nanBetween _ _ _ _ => exact Or.inl ⟨_, .tail _ (.head _)⟩
  | nanLast _ _ _ _ _ => exact Or.inl ⟨_, .tail _ (.tail _ (.head _))⟩
  | numberFirst hx _ _ _ hc _ => exact hnumber hx (by simp) (hspelled hc) (by simp)
  | numberBetween hs hy _ _ _ _ => exact hnumber hy (by simp) (hspelled hs) (by simp)
  | numberLast _ _ ht hz _ _ => exact hnumber hz (by simp) (hspelled ht) (by simp)

end Scalar

/-- Under each name of the specification there are no doubles, and no integers beside texts
that spell a number. -/
structure SortsPlainly (spec : Document) (documents : List Document) : Prop where
  noDouble : ∀ path ∈ spec.keys, ∀ d ∈ documents,
    (d.resolve? path).map Kind.ofValue ≠ some .double
  unmixed : ∀ path ∈ spec.keys, ∀ a ∈ documents, ∀ b ∈ documents,
    (sortKey (a.resolve? path)).isInteger = true → (sortKey (b.resolve? path)).isSpelled = false

theorem eq_double_of_sortKey {v : Option Value} {d : Double} (h : sortKey v = .number d) :
    v = some (.double d) := by
  cases v with
  | none => cases h
  | some v => cases v <;> cases h; rfl

theorem SortsPlainly.sortsTotally {spec : Document} {documents : List Document}
    (h : SortsPlainly spec documents) : SortsTotally spec documents := by
  refine sortsTotally_iff.mpr fun path hpath a ha b hb c hc htangle => ?_
  have hkey : ∀ k ∈ [sortKey (a.resolve? path), sortKey (b.resolve? path),
      sortKey (c.resolve? path)], ∃ d ∈ documents, sortKey (d.resolve? path) = k := by
    simp only [List.forall_mem_cons, List.not_mem_nil, false_implies, implies_true, and_true]
    exact ⟨⟨a, ha, rfl⟩, ⟨b, hb, rfl⟩, ⟨c, hc, rfl⟩⟩
  rcases htangle.double_or_spelled with ⟨x, hx⟩ | ⟨⟨v, hv, hinteger⟩, w, hw, hspelled⟩
  · obtain ⟨d, hd, hsort⟩ := hkey _ hx
    refine h.noDouble path hpath d hd ?_
    rw [eq_double_of_sortKey hsort]
    rfl
  · obtain ⟨d, hd, rfl⟩ := hkey v hv
    obtain ⟨e, he, rfl⟩ := hkey w hw
    rw [h.unmixed path hpath d hd e he hinteger] at hspelled
    cases hspelled

/-! ## Ties -/

section SortBy

variable {α : Type} {spec : Document} {document : α → Document} {items : List α}

/-- Items that are tied with the same one are not greater than one another. -/
theorem itemsLE_of_tied (h : SortsTotally spec (items.map document)) {x : α} (hx : x ∈ items)
    {a b : { y // y ∈ items }} (ha : sortOrder spec (document x) (document a.1) = .eq)
    (hb : sortOrder spec (document x) (document b.1) = .eq) :
    itemsLE spec document items a b = true := by
  have hcmp := transCmp_sortOrder h
  have hmem : ∀ {y}, y ∈ items → document y ∈ items.map document := List.mem_map_of_mem
  have hax : (sortOrder spec (document a.1) (document x)).isLE = true := by
    rw [hcmp.eq_swap (a := ⟨_, hmem a.2⟩) (b := ⟨_, hmem hx⟩), ha]
    rfl
  have hxb : (sortOrder spec (document x) (document b.1)).isLE = true := by
    rw [hb]
    rfl
  have hab := hcmp.isLE_trans (a := ⟨_, hmem a.2⟩) (b := ⟨_, hmem hx⟩) (c := ⟨_, hmem b.2⟩) hax hxb
  exact bne_iff_ne.mpr (Ordering.isLE_iff_ne_gt.mp hab)

/-- What is tied with an item comes out in the order in which it went in. -/
theorem filter_sortBy (h : SortsTotally spec (items.map document)) {x : α} (hx : x ∈ items) :
    (sortBy spec document items).filter
        (fun y => sortOrder spec (document x) (document y) == .eq) =
      items.filter fun y => sortOrder spec (document x) (document y) == .eq := by
  generalize htied : (fun y => sortOrder spec (document x) (document y) == .eq) = tied
  -- Tied items are sorted already.
  have hsorted : (items.attach.filter fun y => tied y.1).Pairwise fun a b =>
      itemsLE spec document items a b = true := by
    refine List.pairwise_of_forall_mem_list fun a ha b hb => ?_
    rw [List.mem_filter, ← htied, beq_iff_eq] at ha hb
    exact itemsLE_of_tied h hx ha.2 hb.2
  have hkept := List.sublist_mergeSort (itemsLE_trans h) (itemsLE_total h) hsorted
    List.filter_sublist
  have hsublist : (items.filter tied).Sublist (sortBy spec document items) := by
    have hmap : (items.attach.filter fun y => tied y.1).map Subtype.val = items.filter tied := by
      conv_rhs => rw [← List.attach_map_subtype_val items, List.filter_map]
      rfl
    rw [sortBy_eq_attach, ← hmap]
    exact hkept.map Subtype.val
  have hfiltered := hsublist.filter tied
  rw [List.filter_filter] at hfiltered
  simp only [Bool.and_self] at hfiltered
  exact (hfiltered.eq_of_length
    ((perm_sortBy spec document items).filter tied).length_eq.symm).symm

/-- Two tied items stand in the result as they stood before. -/
theorem pair_sublist_of_tied (h : SortsTotally spec (items.map document)) {a b : α}
    (hpair : [a, b].Sublist (sortBy spec document items))
    (htied : sortOrder spec (document a) (document b) = .eq) : [a, b].Sublist items := by
  have hsorted : a ∈ sortBy spec document items := hpair.subset (List.mem_cons_self ..)
  have ha : a ∈ items := (perm_sortBy spec document items).mem_iff.mp hsorted
  have hself : sortOrder spec (document a) (document a) = .eq :=
    sortOrder_eq_eq_iff.mpr fun field _ => (sortKey ((document a).resolve? field.1)).order_self
  have hfiltered := hpair.filter fun y => sortOrder spec (document a) (document y) == .eq
  rw [filter_sortBy h ha] at hfiltered
  simp only [List.filter_cons, hself, htied, beq_self_eq_true, if_true, List.filter_nil]
    at hfiltered
  exact hfiltered.trans List.filter_sublist

end SortBy

/-- Without doubles, and without integers beside texts that spell a number, the result is the
documents, each taken from its place, so that none stands before one that it stands behind, and
tied ones stay in order. -/
theorem sortDocuments_stable {spec : Document} {documents : List Document}
    (h : SortsPlainly spec documents) :
    ∃ placed : List (Document × Nat), placed.Perm documents.zipIdx ∧
      placed.map (·.1) = sortDocuments spec documents ∧
      placed.Pairwise fun a b =>
        ¬ StandsBehind spec a.1 b.1 ∧ (Tied spec a.1 b.1 → a.2 < b.2) := by
  have hfst : documents.zipIdx.map (·.1) = documents := List.zipIdx_map_fst 0 documents
  have htotal : SortsTotally spec (documents.zipIdx.map (·.1)) := by
    rw [hfst]
    exact h.sortsTotally
  refine ⟨sortBy spec (·.1) documents.zipIdx, perm_sortBy .., ?_, ?_⟩
  · rw [map_sortBy, hfst]
  · have hordered := pairwise_sortBy htotal
    rw [List.pairwise_iff_forall_sublist] at hordered ⊢
    intro a b hpair
    refine ⟨fun hbehind => hordered hpair (sortOrder_eq_gt_iff.mpr hbehind), fun htied => ?_⟩
    have hplaces : documents.zipIdx.Pairwise fun a b => a.2 < b.2 := by
      rw [← List.pairwise_map, List.zipIdx_map_snd]
      exact List.pairwise_lt_range'
    have hbefore := pair_sublist_of_tied htotal hpair (sortOrder_eq_eq_iff.mpr htied)
    exact List.pairwise_iff_forall_sublist.mp hplaces hbefore

/-- Strings, a symbol, an integer and a missing field under one name, and downwards under the
other, with two documents that are tied in both. -/
theorem sortDocuments_stable_mixed :
    let spec : Document := [("a", .int32 1), ("b.n", .string "desc")]
    let documents : List Document :=
      [[("a", .string "x"), ("b", .document [("n", .int32 1)])], [("b", .document [("n", .int32 2)])],
        [("a", .symbol "x"), ("b.n", .int64 7)], [("a", .int32 5)],
        [("a", .string "x"), ("b", .document [("n", .int64 1)])]]
    SortsPlainly spec documents ∧ ∃ placed : List (Document × Nat),
      placed.Perm documents.zipIdx ∧ placed.map (·.1) = sortDocuments spec documents ∧
      placed.Pairwise fun a b =>
        ¬ StandsBehind spec a.1 b.1 ∧ (Tied spec a.1 b.1 → a.2 < b.2) := by
  intro spec documents
  have hplain : SortsPlainly spec documents := ⟨by decide, by decide⟩
  exact ⟨hplain, sortDocuments_stable hplain⟩

end DocStore
