import DocStore.Paging
import Mathlib.Data.List.Basic

/-!
# Sorting

Sorting is only worth its name where the values that the documents have under
the names of the specification are totally preordered (`SortsTotally`). That is
asked for each name and for the documents at hand; it follows for the order of
documents by all names together, one after the other (`transCmp_sortOrder`).

Then nothing stands behind a greater document (`pairwise_sortBy`), and what is
not greater than a later item stays before it (`pair_sublist_sortBy`). The
first item of the result is therefore the first of the least items
(`first_of_sortBy`), whatever way of sorting is behind it. Whether the items
are documents or only carry them makes no difference (`map_sortBy`).
-/

namespace DocStore

/-- For each name in the specification, the values of these documents are
totally preordered. -/
def SortsTotally (spec : Document) (documents : List Document) : Prop :=
  ∀ path ∈ spec.keys, Std.TransCmp fun a b : { d // d ∈ documents } =>
    sortCompare (a.1.resolve? path) (b.1.resolve? path)

theorem transCmp_sortOrder {documents : List Document} : ∀ {spec : Document},
    SortsTotally spec documents →
      Std.TransCmp fun a b : { d // d ∈ documents } => sortOrder spec a.1 b.1
  | [], _ => { eq_swap := rfl, isLE_trans := fun _ _ => rfl }
  | (path, direction) :: rest, h => by
      have hfirst := h path (List.mem_cons_self ..)
      have hrest : Std.TransCmp fun a b : { d // d ∈ documents } => sortOrder rest a.1 b.1 :=
        transCmp_sortOrder fun key hkey => h key (List.mem_cons_of_mem _ hkey)
      -- Sorting downwards takes the two values the other way round.
      have hdirected : Std.TransCmp fun a b : { d // d ∈ documents } =>
          if isDescending direction then
            (sortCompare (a.1.resolve? path) (b.1.resolve? path)).swap
          else sortCompare (a.1.resolve? path) (b.1.resolve? path) := by
        cases isDescending direction with
        | false => exact hfirst
        | true =>
            have hopposite : Std.TransCmp fun a b : { d // d ∈ documents } =>
                sortCompare (b.1.resolve? path) (a.1.resolve? path) :=
              @Std.TransCmp.opposite _ _ hfirst
            have hswap : ∀ a b : { d // d ∈ documents },
                (sortCompare (a.1.resolve? path) (b.1.resolve? path)).swap =
                  sortCompare (b.1.resolve? path) (a.1.resolve? path) :=
              fun _ _ => (hfirst.eq_swap).symm
            simpa only [hswap, if_true] using hopposite
      exact inferInstanceAs (Std.TransCmp (compareLex _ _))

/-- Where the values sort like integers, they are totally preordered. -/
theorem sortsTotally_of_key {spec : Document} {documents : List Document}
    (key : String → Document → Int)
    (h : ∀ path ∈ spec.keys, ∀ a ∈ documents, ∀ b ∈ documents,
      sortCompare (a.resolve? path) (b.resolve? path) = compare (key path a) (key path b)) :
    SortsTotally spec documents := by
  intro path hpath
  have hkey : (fun a b : { d // d ∈ documents } =>
      sortCompare (a.1.resolve? path) (b.1.resolve? path)) =
        compareOn fun a : { d // d ∈ documents } => key path a.1 :=
    funext fun a => funext fun b => h path hpath a.1 a.2 b.1 b.2
  rw [hkey]
  infer_instance

section SortBy

variable {α : Type} {spec : Document} {document : α → Document} {items : List α}

theorem map_sortBy (spec : Document) (document : α → Document) (items : List α) :
    (sortBy spec document items).map document = sortDocuments spec (items.map document) :=
  List.map_mergeSort fun _ _ _ _ => rfl

theorem perm_sortBy (spec : Document) (document : α → Document) (items : List α) :
    (sortBy spec document items).Perm items :=
  List.mergeSort_perm ..

/-- Not greater, among the items that are sorted. -/
def itemsLE (spec : Document) (document : α → Document) (items : List α)
    (a b : { x // x ∈ items }) : Bool :=
  sortOrder spec (document a.1) (document b.1) != .gt

/-- The sort only ever compares items with one another. -/
theorem sortBy_eq_attach (spec : Document) (document : α → Document) (items : List α) :
    sortBy spec document items =
      (items.attach.mergeSort (itemsLE spec document items)).map Subtype.val := by
  calc sortBy spec document items
      = sortBy spec document (items.attach.map Subtype.val) := by rw [List.attach_map_subtype_val]
    _ = (items.attach.mergeSort (itemsLE spec document items)).map Subtype.val :=
        (List.map_mergeSort (f := Subtype.val) (r := itemsLE spec document items)
          (l := items.attach) fun _ _ _ _ => rfl).symm

theorem itemsLE_trans (h : SortsTotally spec (items.map document)) (a b c : { x // x ∈ items })
    (hab : itemsLE spec document items a b = true) (hbc : itemsLE spec document items b c = true) :
    itemsLE spec document items a c = true := by
  have hcmp := transCmp_sortOrder h
  have hmem : ∀ x : { x // x ∈ items }, document x.1 ∈ items.map document :=
    fun x => List.mem_map_of_mem x.2
  simp only [itemsLE, bne_iff_ne, ← Ordering.isLE_iff_ne_gt] at *
  exact hcmp.isLE_trans (a := ⟨_, hmem a⟩) (b := ⟨_, hmem b⟩) (c := ⟨_, hmem c⟩) hab hbc

theorem itemsLE_total (h : SortsTotally spec (items.map document)) (a b : { x // x ∈ items }) :
    (itemsLE spec document items a b || itemsLE spec document items b a) = true := by
  have hcmp := transCmp_sortOrder h
  have hmem : ∀ x : { x // x ∈ items }, document x.1 ∈ items.map document :=
    fun x => List.mem_map_of_mem x.2
  have hswap : sortOrder spec (document a.1) (document b.1) =
      (sortOrder spec (document b.1) (document a.1)).swap :=
    hcmp.eq_swap (a := ⟨_, hmem a⟩) (b := ⟨_, hmem b⟩)
  simp only [itemsLE, hswap]
  cases sortOrder spec (document b.1) (document a.1) <;> rfl

theorem pairwise_sortBy (h : SortsTotally spec (items.map document)) :
    (sortBy spec document items).Pairwise fun a b =>
      sortOrder spec (document a) (document b) ≠ .gt := by
  have hsorted := List.pairwise_mergeSort (itemsLE_trans h) (itemsLE_total h) items.attach
  rw [sortBy_eq_attach, List.pairwise_map]
  exact hsorted.imp fun hle => bne_iff_ne.mp hle

/-- Sorting is stable. -/
theorem pair_sublist_sortBy (h : SortsTotally spec (items.map document)) {a b : α}
    (hpair : [a, b].Sublist items) (hle : sortOrder spec (document a) (document b) ≠ .gt) :
    [a, b].Sublist (sortBy spec document items) := by
  have ha : a ∈ items := hpair.subset (by simp)
  have hb : b ∈ items := hpair.subset (by simp)
  have hattached : [(⟨a, ha⟩ : { x // x ∈ items }), ⟨b, hb⟩].Sublist items.attach := by
    rw [← List.attach_map_subtype_val items] at hpair
    obtain ⟨l, hl, hmap⟩ := List.sublist_map_iff.mp hpair
    have heq : l = [⟨a, ha⟩, ⟨b, hb⟩] :=
      List.map_injective_iff.mpr Subtype.val_injective hmap.symm
    rwa [heq] at hl
  rw [sortBy_eq_attach]
  exact (List.pair_sublist_mergeSort (itemsLE_trans h) (itemsLE_total h)
    (bne_iff_ne.mpr hle) hattached).map Subtype.val

/-- The first item of the result is not greater than any other, and less than
all that stood before it. -/
theorem first_of_sortBy (h : SortsTotally spec (items.map document)) (hnodup : items.Nodup)
    {x : α} {rest : List α} (hsort : sortBy spec document items = x :: rest) {y : α} :
    (y ∈ items → sortOrder spec (document x) (document y) ≠ .gt) ∧
      ([y, x].Sublist items → sortOrder spec (document y) (document x) = .gt) := by
  have hperm : (x :: rest).Perm items := hsort ▸ perm_sortBy spec document items
  have hx : x ∉ rest := (List.nodup_cons.mp (hperm.nodup_iff.mpr hnodup)).1
  constructor
  · intro hy
    have hsorted := pairwise_sortBy h
    rw [hsort, List.pairwise_cons] at hsorted
    rcases List.mem_cons.mp (hperm.mem_iff.mpr hy) with rfl | hrest
    · have hmem : document y ∈ items.map document := List.mem_map_of_mem hy
      have hself : sortOrder spec (document y) (document y) =
          (sortOrder spec (document y) (document y)).swap :=
        (transCmp_sortOrder h).eq_swap (a := ⟨_, hmem⟩) (b := ⟨_, hmem⟩)
      intro hgt
      rw [hgt] at hself
      cases hself
    · exact hsorted.1 y hrest
  · intro hbefore
    by_contra hle
    have hkept := pair_sublist_sortBy h hbefore hle
    rw [hsort] at hkept
    cases hkept with
    | cons _ hrest => exact hx (hrest.subset (by simp))
    | cons_cons _ hrest => exact hx (hrest.subset (by simp))

end SortBy

end DocStore
