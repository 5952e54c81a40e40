import DocStore.Proofs.Compilation
import DocStore.Proofs.Paths
import DocStore.Proofs.Pieces

/-!
# A missing field and a null

Filters tell a missing field from a null only where they ask for the presence
of a field, its kind, or a test of the caller's (`Piece.asksPresence`). A filter
without such a piece is true of a document exactly if it is true of the document
with a null put in for a field that is missing, at any place
(`Filter.missing_as_null`).

Two inductions over the filter make this up. What a constraint says of a null
it says of a missing field (`Meaning.constraint_missing`); and two documents in
which each path leads to the same value, or to none in the one and a null in
the other, satisfy the same entries (`Meaning.entries_congr`).
-/

namespace DocStore

/-- The operators that every filter can use. -/
def builtInOperators : List String :=
  ["$gt", "$gte", "$lt", "$lte", "$eq", "$ne", "$in", "$nin", "$elemMatch", "$exists", "$size",
    "$type", "$not", "$regex", "$options", "$all", "$instanceOf"]

/-- The piece is given the field as it is, there or not: it asks whether the
field is there, of what kind it is, or what a test of the caller's says. -/
def Piece.asksPresence : Piece → Bool
  | .constraint (.string s) => s == "$exists"
  | .constraint _ => false
  | .operator key _ =>
      ["$exists", "$type", "$instanceOf"].contains key || !builtInOperators.contains key

/-- Nothing in the filter is given a field as it is. -/
def Filter.ignoresPresence (f : Filter) : Bool :=
  f.isTestFree && f.pieces.all (!·.asksPresence)

/-- Each path leads to the same value in both documents, or nowhere in the first
and to a null in the second. -/
def Document.SameButNull (d e : Document) : Prop :=
  ∀ path, d.resolve? path = e.resolve? path ∨ d.resolve? path = none ∧ e.resolve? path = some .null

/-! ## Constraints -/

namespace Meaning

variable [Pattern.Engine] {settings : Settings}

theorem plainOperator_missing {key : String} {operand : Value} (beside : String)
    (h : (Piece.operator key operand).asksPresence = false) (hnot : key ≠ "$not")
    (helement : key ≠ "$elemMatch") :
    plainOperator settings beside key operand none =
      plainOperator settings beside key operand (some .null) := by
  rw [Piece.asksPresence, Bool.or_eq_false_iff, Bool.not_eq_false'] at h
  obtain ⟨hpresence, hbuiltIn⟩ := h
  have hkey : key ∈ builtInOperators := by simpa using hbuiltIn
  simp only [builtInOperators, List.mem_cons, List.not_mem_nil, or_false] at hkey
  rcases hkey with rfl | rfl | rfl | rfl | rfl | rfl | rfl | rfl | rfl | rfl | rfl | rfl | rfl |
    rfl | rfl | rfl | rfl
  all_goals first
    | rfl
    | exact absurd rfl hnot
    | exact absurd rfl helement
    | cases hpresence

mutual

theorem constraint_missing :
    ∀ v : Value, (∀ p ∈ Piece.ofConstraint v, p.asksPresence = false) →
      constraint settings none v = constraint settings (some .null) v
  | v, h => by
      cases v with
      | document d =>
          rw [Piece.ofConstraint, List.forall_mem_cons] at h
          rw [constraint, constraint]
          split
          · rename_i hd
            rw [if_pos hd] at h
            exact operators_missing d h.2 (optionsBeside d)
          · rfl
      | string s =>
          have hs : s ≠ "$exists" := by
            have hpiece := h _ (List.mem_singleton_self _)
            rintro rfl
            cases hpiece
          rw [constraint, constraint, if_neg hs, if_neg hs]
          rfl
      | _ => rfl
termination_by structural v => v

theorem operators_missing :
    ∀ fields : List (String × Value), (∀ p ∈ Piece.ofOperators fields, p.asksPresence = false) →
      ∀ beside, operators settings beside none fields =
        operators settings beside (some .null) fields
  | [], _, _ => rfl
  | (key, operand) :: rest, h, beside => by
      rw [Piece.ofOperators, List.forall_mem_cons, List.forall_mem_append] at h
      obtain ⟨hkey, hinside, hrest⟩ := h
      have hexists : key ≠ "$exists" := by
        rintro rfl
        cases hkey
      rw [operators, operators, if_neg hexists, if_neg hexists, operators_missing rest hrest beside]
      refine congrArg (· && _) ?_
      split
      · rename_i hnot
        rw [if_pos hnot] at hinside
        rw [constraint_missing operand hinside]
      · rename_i hnot
        rw [if_neg hnot] at hinside
        split
        · rename_i helement
          rw [if_pos helement] at hinside
          exact element_missing operand hinside
        · rename_i helement
          exact plainOperator_missing beside hkey hnot helement
termination_by structural fields => fields

theorem element_missing :
    ∀ v : Value, (∀ p ∈ Piece.ofElement v, p.asksPresence = false) →
      element settings none v = element settings (some .null) v
  | v, h => by
      cases v with
      | document d =>
          rw [Piece.ofElement] at h
          unfold element
          split
          · rfl
          · rename_i hd
            rw [if_neg hd] at h
            exact operators_missing d h (optionsBeside d)
      | _ => rfl
termination_by structural v => v

end

theorem condition_missing {c : Condition} (htest : c.isTestFree = true)
    (h : ∀ p ∈ Piece.ofCondition c, p.asksPresence = false) :
    condition settings none c = condition settings (some .null) c := by
  cases c with
  | value v => exact constraint_missing v h
  | predicate p | matcher m => cases htest
  | filters fs => rfl

/-! ## Filters -/

omit [Pattern.Engine] in
/-- Only the pieces of an entry count for it. -/
theorem entry_congr {P : Piece → Prop} {key : String} {isGroup : Bool}
    {filterPieces constraintPieces : List Piece} {xs ys : List Bool} {a b : Bool}
    (h : ∀ p ∈ Piece.ofEntry key isGroup filterPieces constraintPieces, P p)
    (hfilters : (∀ p ∈ filterPieces, P p) → xs = ys)
    (hconstraint : (∀ p ∈ constraintPieces, P p) → a = b) :
    entry key isGroup xs a = entry key isGroup ys b := by
  rw [entry_eq, entry_eq]
  unfold Piece.ofEntry at h
  cases hrole : keyRole key with
  | logical j =>
      rw [hrole] at h
      rw [hfilters h]
      cases j <;> rfl
  | isolated => rfl
  | numeric =>
      rw [hrole] at h
      cases isGroup with
      | true => exact congrArg (List.all · id) (hfilters h)
      | false => exact hconstraint h
  | unknownOperator | field =>
      rw [hrole] at h
      exact hconstraint h

section Entries

variable {d e : Document}

omit [Pattern.Engine] in
/-- What does not tell a missing field from a null is the same of both documents. -/
theorem congr_of_missing (hde : d.SameButNull e) {F : Option Value → Bool} (key : String)
    (h : F none = F (some .null)) : F (d.resolve? key) = F (e.resolve? key) := by
  rcases hde key with heq | ⟨hnone, hnull⟩
  · rw [heq]
  · rw [hnone, hnull, h]

mutual

theorem entries_congr (hde : d.SameButNull e) :
    ∀ fields : List (String × Value), (∀ p ∈ Piece.ofEntries fields, p.asksPresence = false) →
      entries settings d fields = entries settings e fields
  | [], _ => rfl
  | (key, v) :: rest, h => by
      rw [Piece.ofEntries, List.forall_mem_append] at h
      rw [entries, entries, entries_congr hde rest h.2]
      refine congrArg (· && _) (entry_congr h.1 (fun hfilters => ?_) fun hconstraint => ?_)
      · exact subfilters_congr hde v hfilters
      · refine congr_of_missing hde (F := fun x => constraint settings x v) key ?_
        exact constraint_missing v hconstraint
termination_by structural fields => fields

theorem subfilters_congr (hde : d.SameButNull e) :
    ∀ v : Value, (∀ p ∈ Piece.ofSubfilters v, p.asksPresence = false) →
      subfilters settings d v = subfilters settings e v
  | v, h => by
      cases v with
      | array items => exact members_congr hde items h
      | document f => exact congrArg ([·]) (entries_congr hde f h)
      | _ => rfl
termination_by structural v => v

theorem members_congr (hde : d.SameButNull e) :
    ∀ items : List Value, (∀ p ∈ Piece.ofMembers items, p.asksPresence = false) →
      members settings d items = members settings e items
  | [], _ => rfl
  | item :: rest, h => by
      cases item with
      | document f =>
          rw [Piece.ofMembers, List.forall_mem_append] at h
          rw [members, members, entries_congr hde f h.1, members_congr hde rest h.2]
      | _ => exact members_congr hde rest h
termination_by structural items => items

end

mutual

theorem conditions_congr (hde : d.SameButNull e) :
    ∀ f : List (String × Condition), conditionsTestFree f = true →
      (∀ p ∈ Piece.ofConditions f, p.asksPresence = false) →
        conditions settings d f = conditions settings e f
  | [], _, _ => rfl
  | (key, c) :: rest, htest, h => by
      rw [conditionsTestFree, Bool.and_eq_true] at htest
      rw [Piece.ofConditions, List.forall_mem_append] at h
      rw [conditions, conditions, conditions_congr hde rest htest.2 h.2]
      refine congrArg (· && _) (entry_congr h.1 (fun hfilters => ?_) fun hcondition => ?_)
      · exact groups_congr hde c htest.1 hfilters
      · refine congr_of_missing hde (F := fun x => condition settings x c) key ?_
        exact condition_missing htest.1 hcondition
termination_by structural f => f

theorem groups_congr (hde : d.SameButNull e) :
    ∀ c : Condition, c.isTestFree = true → (∀ p ∈ Piece.ofGroups c, p.asksPresence = false) →
      groups settings d c = groups settings e c
  | c, htest, h => by
      cases c with
      | value v => exact subfilters_congr hde v h
      | filters fs => exact filters_congr hde fs htest h
      | _ => rfl
termination_by structural c => c

theorem filters_congr (hde : d.SameButNull e) :
    ∀ fs : List (List (String × Condition)), membersTestFree fs = true →
      (∀ p ∈ Piece.ofFilters fs, p.asksPresence = false) →
        filters settings d fs = filters settings e fs
  | [], _, _ => rfl
  | f :: rest, htest, h => by
      rw [membersTestFree, Bool.and_eq_true] at htest
      rw [Piece.ofFilters, List.forall_mem_append] at h
      rw [filters, filters, conditions_congr hde f htest.1 h.1, filters_congr hde rest htest.2 h.2]
termination_by structural fs => fs

end

end Entries

end Meaning

/-! ## A null put in -/

namespace Document

theorem get?_put_in {xs ys : Document} {key : String} (hnew : key ∉ keys (xs ++ ys)) (v : Value)
    (name : String) :
    get? (xs ++ (key, v) :: ys) name = if name = key then some v else get? (xs ++ ys) name := by
  induction xs with
  | nil => exact get?_cons ..
  | cons field rest ih =>
      obtain ⟨k, w⟩ := field
      have hne : key ≠ k := by
        rintro rfl
        exact hnew (List.mem_cons_self ..)
      have hrest : key ∉ keys (rest ++ ys) := fun hmem => hnew (List.mem_cons_of_mem _ hmem)
      rw [List.cons_append, List.cons_append, get?_cons, get?_cons, ih hrest]
      by_cases hk : name = k
      · subst hk
        rw [if_pos rfl, if_pos rfl, if_neg hne.symm]
      · rw [if_neg hk, if_neg hk]

/-- A null under a new name without dots is found under that name only. -/
theorem sameButNull_put_in {xs ys : Document} {key : String} (hkey : '.' ∉ key.toList)
    (hnew : key ∉ keys (xs ++ ys)) :
    SameButNull (xs ++ ys) (xs ++ (key, .null) :: ys) := by
  intro path
  have hget := get?_put_in hnew .null
  have hmissing : get? (xs ++ ys) key = none :=
    Option.eq_none_iff_forall_ne_some.mpr fun v hv => hnew (mem_keys_iff.mpr ⟨v, hv⟩)
  by_cases hpath : path = key
  · subst hpath
    refine Or.inr ⟨?_, ?_⟩
    · rw [resolve?, hmissing, Path.segments_of_not_mem hkey]
      simp [Value.descend?, Value.child?, hmissing]
    · rw [resolve?, hget, if_pos rfl]
  · refine Or.inl ?_
    rw [resolve?, resolve?, hget, if_neg hpath]
    cases get? (xs ++ ys) path with
    | some v => rfl
    | none =>
        cases hsegments : Path.segments path with
        | nil => exact absurd hsegments (Path.segments_ne_nil path)
        | cons segment rest =>
            simp only [Value.descend?, Value.child?, hget]
            by_cases hsegment : segment = key
            · subst hsegment
              -- Below a null there is nothing, and the path goes on below the name.
              cases rest with
              | nil =>
                  have hjoin := Path.join_segments path
                  rw [hsegments] at hjoin
                  exact absurd (hjoin.symm.trans String.intercalate_singleton) hpath
              | cons second rest => simp [hmissing, Value.descend?, Value.child?]
            · rw [if_neg hsegment]

end Document

/-- Where no piece of a filter is given a field as it is, a document with a
field missing satisfies the filter just if the document with a null in its place
does; and each constraint of such pieces says of a missing field what it says of
a null. -/
theorem Filter.missing_as_null [Pattern.Engine] (settings : Settings) :
    (∀ (f : Filter) q, f.compile settings = .ok q → f.ignoresPresence = true →
      ∀ (xs ys : Document) (key : String), '.' ∉ key.toList → key ∉ Document.keys (xs ++ ys) →
        q.holds (xs ++ ys) = q.holds (xs ++ (key, .null) :: ys)) ∧
    (∀ (c : Condition) k, c.compile settings = .ok k → c.isTestFree = true →
      (∀ p ∈ Piece.ofCondition c, p.asksPresence = false) → k.holds none = k.holds (some .null)) := by
  constructor
  · intro f q hq hf xs ys key hkey hnew
    rw [ignoresPresence, Bool.and_eq_true, List.all_eq_true] at hf
    have hpieces : ∀ p ∈ f.pieces, p.asksPresence = false := fun p hp => by simpa using hf.2 p hp
    have hnull := Document.sameButNull_put_in hkey hnew
    calc q.holds (xs ++ ys)
        = Meaning.conditions settings (xs ++ ys) f := holds_of_compileConditions f hq _
      _ = Meaning.conditions settings (xs ++ (key, .null) :: ys) f :=
          Meaning.conditions_congr hnull f hf.1 hpieces
      _ = q.holds (xs ++ (key, .null) :: ys) := (holds_of_compileConditions f hq _).symm
  · intro c k hk htest hpieces
    rw [Condition.holds_of_compile hk, Condition.holds_of_compile hk]
    exact Meaning.condition_missing htest hpieces

/-- Not an item below three, and a string or nothing in the field: it may be
missing, or null, before the other fields. -/
theorem Filter.missing_as_null_below :
    let c : Condition := .value (.document [("$not", .document [("$elemMatch", .document [
      ("$lt", .int32 3)])])])
    let f : Filter := [("a", c), ("$or", .filters [[("a.b", .value (.document [
      ("$in", .array [.string "x", .null])]))]])]
    ∃ q k, f.compile .default = .ok q ∧ c.compile .default = .ok k ∧
      q.holds [("n", .int32 1)] = q.holds [("a", .null), ("n", .int32 1)] ∧
      k.holds none = k.holds (some .null) := by
  intro c f
  refine ⟨_, _, rfl, rfl, ?_, ?_⟩
  · exact (Filter.missing_as_null .default).1 f _ rfl (by decide) [] [("n", .int32 1)] "a"
      (by decide) (by decide)
  · exact (Filter.missing_as_null .default).2 c _ rfl rfl (by decide)

end DocStore
