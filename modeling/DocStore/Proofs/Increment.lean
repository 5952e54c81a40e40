import DocStore.Proofs.Equalities
import DocStore.Proofs.Removal
import DocStore.Proofs.WriteExtent

/-!
# Increments are exact

An increment reads a field, adds to it and overwrites what it has read. If both
are integers the field then reads as their sum, which is no wider than it has to
be (`addIntegers_of_fits`); a sum that does not fit in 64 bits is an error, and
nothing wraps around. A missing field is written as a zero first, which can fail
like any other write. Whatever is no integer is left alone
(`Update.increment_exact`).

What is overwritten is what has been read (`Document.resolve?_replace?_self`).
And an increment that fails has written nothing so far, not even the zero: zero
and any other integer have a sum (`Document.incrementInPlace_eq`).
-/

namespace DocStore

open DocStore.Path

/-! ## Sums -/

def FitsInt32 (n : Int) : Prop := Int32.minValue.toInt ≤ n ∧ n ≤ Int32.maxValue.toInt

def FitsInt64 (n : Int) : Prop := Int64.minValue.toInt ≤ n ∧ n ≤ Int64.maxValue.toInt

instance (n : Int) : Decidable (FitsInt32 n) := inferInstanceAs (Decidable (_ ∧ _))

instance (n : Int) : Decidable (FitsInt64 n) := inferInstanceAs (Decidable (_ ∧ _))

theorem toInt_ofInt32_iff {n : Int} : (Int32.ofInt n).toInt = n ↔ FitsInt32 n :=
  ⟨fun h => h ▸ ⟨Int32.minValue_le_toInt _, Int32.toInt_le _⟩, fun h =>
    Int32.toInt_ofInt_of_le h.1 (Int.lt_add_one_of_le h.2)⟩

theorem toInt_ofInt64_iff {n : Int} : (Int64.ofInt n).toInt = n ↔ FitsInt64 n :=
  ⟨fun h => h ▸ ⟨Int64.minValue_le_toInt _, Int64.toInt_le _⟩, fun h =>
    Int64.toInt_ofInt_of_le h.1 (Int.lt_add_one_of_le h.2)⟩

section Sums

variable {a b : Value} {m n : Int}

/-- The kind of a sum. -/
def sumKind (a b : Value) (sum : Int) : String :=
  if a.kindName = "Int32" ∧ b.kindName = "Int32" ∧ FitsInt32 sum then "Int32" else "Int64"

theorem wideInteger?_of_fits (h : FitsInt64 n) :
    ∃ sum, wideInteger? n = some sum ∧ sum.integer? = some n ∧ sum.kindName = "Int64" := by
  have hword := toInt_ofInt64_iff.mpr h
  exact ⟨_, if_pos hword, congrArg some hword, rfl⟩

theorem wideInteger?_of_not_fits (h : ¬ FitsInt64 n) : wideInteger? n = none :=
  if_neg (mt toInt_ofInt64_iff.mp h)

/-- Two narrow integers add up to a wide one at most. -/
theorem fitsInt64_add (x y : Int32) : FitsInt64 (x.toInt + y.toInt) := by
  have hx := x.le_toInt
  have hx' := x.toInt_lt
  have hy := y.le_toInt
  have hy' := y.toInt_lt
  have hleast : Int64.minValue.toInt = -2 ^ 63 := by decide
  have hlargest : Int64.maxValue.toInt = 2 ^ 63 - 1 := by decide
  unfold FitsInt64
  omega

/-- Only two narrow integers have a sum that may be narrow. -/
theorem narrow_or_wide (ha : a.integer? = some m) (hb : b.integer? = some n) :
    (∃ x y, a = .int32 x ∧ b = .int32 y) ∨
      addIntegers a b = some (wideInteger? (m + n)) ∧ sumKind a b (m + n) = "Int64" := by
  have hwidth : "Int64" ≠ "Int32" := by decide
  cases a with
  | int32 x =>
      obtain rfl := Option.some.inj ha
      cases b with
      | int32 y => exact Or.inl ⟨x, y, rfl, rfl⟩
      | int64 y =>
          obtain rfl := Option.some.inj hb
          exact Or.inr ⟨rfl, if_neg fun hnarrow => hwidth hnarrow.2.1⟩
      | _ => cases hb
  | int64 x =>
      obtain rfl := Option.some.inj ha
      cases b with
      | int32 y | int64 y =>
          obtain rfl := Option.some.inj hb
          exact Or.inr ⟨rfl, if_neg fun hnarrow => hwidth hnarrow.1⟩
      | _ => cases hb
  | _ => cases ha

/-- Two integers add up to their sum, in the narrowest kind that it may have. -/
theorem addIntegers_of_fits (ha : a.integer? = some m) (hb : b.integer? = some n)
    (h : FitsInt64 (m + n)) : ∃ sum, addIntegers a b = some (some sum) ∧
      sum.integer? = some (m + n) ∧ sum.kindName = sumKind a b (m + n) := by
  rcases narrow_or_wide ha hb with ⟨x, y, rfl, rfl⟩ | ⟨hadd, hkind⟩
  · obtain rfl := Option.some.inj ha
    obtain rfl := Option.some.inj hb
    rw [addIntegers]
    by_cases hnarrow : FitsInt32 (x.toInt + y.toInt)
    · have hword := toInt_ofInt32_iff.mpr hnarrow
      exact ⟨_, if_pos hword, congrArg some hword, (if_pos ⟨rfl, rfl, hnarrow⟩).symm⟩
    · refine ⟨_, if_neg (mt toInt_ofInt32_iff.mp hnarrow), ?_, ?_⟩
      · exact congrArg some (toInt_ofInt64_iff.mpr h)
      · exact (if_neg fun hboth => hnarrow hboth.2.2).symm
  · obtain ⟨sum, hwide, hsum, hkind'⟩ := wideInteger?_of_fits h
    exact ⟨sum, by rw [hadd, hwide], hsum, hkind'.trans hkind.symm⟩

theorem addIntegers_of_not_fits (ha : a.integer? = some m) (hb : b.integer? = some n)
    (h : ¬ FitsInt64 (m + n)) : addIntegers a b = some none := by
  rcases narrow_or_wide ha hb with ⟨x, y, rfl, rfl⟩ | ⟨hadd, -⟩
  · obtain rfl := Option.some.inj ha
    obtain rfl := Option.some.inj hb
    exact absurd (fitsInt64_add x y) h
  · rw [hadd, wideInteger?_of_not_fits h]

/-- Zero and any other integer have a sum. -/
theorem fitsInt64_zero_add (hb : b.integer? = some n) : FitsInt64 (0 + n) := by
  rw [Int.zero_add]
  cases b with
  | int32 y =>
      obtain rfl := Option.some.inj hb
      have hzero := fitsInt64_add 0 y
      rwa [Int32.toInt_zero, Int.zero_add] at hzero
  | int64 y =>
      obtain rfl := Option.some.inj hb
      exact ⟨Int64.minValue_le_toInt y, Int64.toInt_le y⟩
  | _ => cases hb

theorem addIntegers_of_other (h : a.integer? = none ∨ b.integer? = none) :
    addIntegers a b = none := by
  unfold addIntegers
  split <;> first | rfl | (rcases h with h | h <;> cases h)

theorem addIntegers_zero_ne (b : Value) : addIntegers (.int32 0) b ≠ some none := by
  intro hnone
  cases hb : b.integer? with
  | none => cases hnone.symm.trans (addIntegers_of_other (Or.inr hb))
  | some n =>
      obtain ⟨sum, hsum, -⟩ := addIntegers_of_fits (a := .int32 0) rfl hb (fitsInt64_zero_add hb)
      cases hnone.symm.trans hsum

end Sums

/-! ## Writes that fail -/

theorem Value.invalidUpdate_of_setAt {v new : Value} {owner : String} {path : List String}
    {e : Error} (h : v.setAt owner path new = .error e) : ∃ reason, e = .invalidUpdate reason := by
  fun_induction Value.setAt v owner path new
  case case1 => cases h
  case case2 ih => exact ih (map_eq_error_iff.mp h)
  case case5 ih => exact ih (map_eq_error_iff.mp h)
  all_goals exact ⟨_, (Except.error.inj h).symm⟩

theorem Document.invalidUpdate_of_set {d : Document} {path : String} {new : Value} {e : Error}
    (h : d.set path new = .error e) : ∃ reason, e = .invalidUpdate reason := by
  unfold set at h
  split at h
  · cases h
  · exact Value.invalidUpdate_of_setAt (map_eq_error_iff.mp h)

/-! ## The field that is read -/

namespace Document

variable {d changed : Document} {path : String} {new amount current : Value}

theorem shadows_of_not_contains (h : d.contains path = false) : d.shadows path = false := by
  rw [shadows, h, Bool.and_false]

theorem contains_of_missing (h : d.resolve? path = none) : d.contains path = false := by
  unfold resolve? at h
  rw [contains]
  cases hget : d.get? path with
  | none => rfl
  | some v =>
      rw [hget] at h
      cases h

/-- A field that was missing is read as it has been set. -/
theorem resolve?_set_of_missing (h : d.resolve? path = none)
    (hset : d.set path new = .ok changed) : changed.resolve? path = some new :=
  resolve?_set_self (shadows_of_not_contains (contains_of_missing h)) hset

/-! ### Adding to it -/

/-- The rest of an increment, after the field has been read. -/
def addAt (d : Document) (path : String) (amount current : Value) : Except Error Document :=
  match addIntegers current amount with
  | none => .ok d
  | some none => .error (.invalidUpdate ("increment of '" ++ path ++ "' overflows"))
  | some (some sum) => .ok ((d.replace? path sum).getD d)

theorem increment_of_present (h : d.resolve? path = some current) :
    d.increment path amount = d.addAt path amount current := by
  simp only [increment, h, Option.isSome_some, if_true, pure_bind, addAt]
  rfl

theorem increment_of_missing {created : Document} (h : d.resolve? path = none)
    (hset : d.set path (.int32 0) = .ok created) :
    d.increment path amount = created.addAt path amount (.int32 0) := by
  simp only [increment, h, Option.isSome_none, Bool.false_eq_true, if_false, hset, addAt, ok_bind,
    resolve?_set_of_missing h hset]
  rfl

theorem increment_of_blocked {e : Error} (h : d.resolve? path = none)
    (hset : d.set path (.int32 0) = .error e) : d.increment path amount = .error e := by
  simp only [increment, h, Option.isSome_none, Bool.false_eq_true, if_false, hset]
  rfl

section Adding

variable {m n : Int}

theorem addAt_of_fits (hread : d.resolve? path = some current) (hm : current.integer? = some m)
    (hn : amount.integer? = some n) (h : FitsInt64 (m + n)) :
    ∃ changed sum, d.addAt path amount current = .ok changed ∧ changed.resolve? path = some sum ∧
      sum.integer? = some (m + n) ∧ sum.kindName = sumKind current amount (m + n) := by
  obtain ⟨sum, hadd, hsum⟩ := addIntegers_of_fits hm hn h
  obtain ⟨changed, hreplace⟩ := exists_replace? hread sum
  refine ⟨changed, sum, ?_, resolve?_replace?_self hreplace, hsum⟩
  rw [addAt, hadd]
  simp only [hreplace, Option.getD_some]

theorem addAt_of_not_fits (hm : current.integer? = some m) (hn : amount.integer? = some n)
    (h : ¬ FitsInt64 (m + n)) : d.addAt path amount current =
      .error (.invalidUpdate ("increment of '" ++ path ++ "' overflows")) := by
  rw [addAt, addIntegers_of_not_fits hm hn h]

theorem addAt_of_other (h : current.integer? = none ∨ amount.integer? = none) :
    d.addAt path amount current = .ok d := by
  rw [addAt, addIntegers_of_other h]

end Adding

/-- An increment of the field adds to this value: the field, or a zero where one can be made. -/
def AddsTo (d : Document) (path : String) (start : Value) : Prop :=
  d.resolve? path = some start ∨
    d.resolve? path = none ∧ start = .int32 0 ∧ ∃ created, d.set path (.int32 0) = .ok created

/-- Then the field reads as that value in a document in which the rest is done. -/
theorem AddsTo.increment_eq (h : d.AddsTo path current) (amount : Value) :
    ∃ opened : Document, opened.resolve? path = some current ∧
      d.increment path amount = opened.addAt path amount current ∧
      (d.WellFormed → opened.WellFormed) := by
  rcases h with hread | ⟨hmissing, rfl, created, hset⟩
  · exact ⟨d, hread, increment_of_present hread, id⟩
  · have hzero : (Value.int32 0).WellFormed := trivial
    exact ⟨created, resolve?_set_of_missing hmissing hset, increment_of_missing hmissing hset,
      fun hd => hd.set hzero hset⟩

theorem addsTo_or_blocked (d : Document) (path : String) :
    (∃ start, d.AddsTo path start) ∨
      d.resolve? path = none ∧ ∃ e, d.set path (.int32 0) = .error e := by
  cases hread : d.resolve? path with
  | some start => exact Or.inl ⟨start, Or.inl hread⟩
  | none =>
      cases hset : d.set path (.int32 0) with
      | ok created => exact Or.inl ⟨.int32 0, Or.inr ⟨hread, rfl, created, hset⟩⟩
      | error e => exact Or.inr ⟨rfl, e, rfl⟩

/-- An increment fails on a sum that does not fit, or where no zero can be made. -/
theorem increment_error_iff :
    (∃ e, d.increment path amount = .error e) ↔
      (∃ start m n, d.AddsTo path start ∧ start.integer? = some m ∧ amount.integer? = some n ∧
        ¬ FitsInt64 (m + n)) ∨
      d.resolve? path = none ∧ ∃ e, d.set path (.int32 0) = .error e := by
  constructor
  · rintro ⟨e, h⟩
    rcases addsTo_or_blocked d path with ⟨start, hstart⟩ | hblocked
    · obtain ⟨opened, hread, heq, -⟩ := hstart.increment_eq amount
      rw [heq] at h
      cases hm : start.integer? with
      | none => cases h.symm.trans (addAt_of_other (Or.inl hm))
      | some m =>
          cases hn : amount.integer? with
          | none => cases h.symm.trans (addAt_of_other (Or.inr hn))
          | some n =>
              refine Or.inl ⟨start, m, n, hstart, hm, rfl, fun hfits => ?_⟩
              obtain ⟨changed, sum, hadd, -⟩ := addAt_of_fits hread hm hn hfits
              cases h.symm.trans hadd
    · exact Or.inr hblocked
  · rintro (⟨start, m, n, hstart, hm, hn, hfits⟩ | ⟨hmissing, e, hset⟩)
    · obtain ⟨opened, -, heq, -⟩ := hstart.increment_eq amount
      exact ⟨_, heq.trans (addAt_of_not_fits hm hn hfits)⟩
    · exact ⟨e, increment_of_blocked hmissing hset⟩

theorem invalidUpdate_of_increment {e : Error} (h : d.increment path amount = .error e) :
    ∃ reason, e = .invalidUpdate reason := by
  rcases addsTo_or_blocked d path with ⟨start, hstart⟩ | ⟨hmissing, e', hset⟩
  · obtain ⟨opened, -, heq, -⟩ := hstart.increment_eq amount
    rw [heq, addAt] at h
    split at h
    · cases h
    · exact ⟨_, (Except.error.inj h).symm⟩
    · cases h
  · obtain rfl := Except.error.inj ((increment_of_blocked hmissing hset).symm.trans h)
    exact invalidUpdate_of_set hset

/-! ### In place -/

/-- Adds to a field and keeps what it has written when it fails. -/
def incrementInPlace (d : Document) (path : String) (amount : Value) :
    Document × Except Error Unit :=
  let opened := if (d.resolve? path).isSome then (d, .ok ()) else d.write path (.int32 0)
  match opened.2, opened.1.resolve? path with
  | .error e, _ => (opened.1, .error e)
  | .ok (), none => (opened.1, .ok ())
  | .ok (), some current =>
      match addIntegers current amount with
      | none => (opened.1, .ok ())
      | some none =>
          (opened.1, .error (.invalidUpdate ("increment of '" ++ path ++ "' overflows")))
      | some (some sum) => ((opened.1.replace? path sum).getD opened.1, .ok ())

theorem incrementInPlace_eq (d : Document) (path : String) (amount : Value) :
    d.incrementInPlace path amount = settled d (d.increment path amount) := by
  cases hread : d.resolve? path with
  | some current =>
      rw [increment_of_present hread, addAt]
      simp only [incrementInPlace, hread, Option.isSome_some, if_true]
      split <;> rfl
  | none =>
      cases hset : d.set path (.int32 0) with
      | error e =>
          rw [increment_of_blocked hread hset]
          simp only [incrementInPlace, hread, Option.isSome_none, Bool.false_eq_true, if_false,
            write_eq, hset, settled]
      | ok created =>
          rw [increment_of_missing hread hset, addAt]
          simp only [incrementInPlace, hread, Option.isSome_none, Bool.false_eq_true, if_false,
            write_eq, hset, settled, resolve?_set_of_missing hread hset]
          split
          · rfl
          · rename_i hnone
            exact (addIntegers_zero_ne amount hnone).elim
          · rfl

end Document

/-! ## The operator -/

section Increment

variable {d : Document} {path : String} {amount : Value}

theorem Update.apply_increment (d : Document) (path : String) (amount : Value) :
    (Update.parse [("$inc", .document [(path, amount)])] >>= fun u => u.apply d) =
      (d.increment path amount).map fun updated =>
        if updated.same d then (d, false) else (updated, true) := by
  refine (Update.apply_single .increment [(path, amount)] d).trans ?_
  rw [UpdateOperator.apply, UpdateOperator.applyField]
  cases d.increment path amount <;> rfl

theorem Value.wellFormed_of_integer {a : Value} {n : Int} (ha : a.integer? = some n) :
    a.WellFormed := by
  cases a <;> trivial

theorem Value.eq_of_same_integer {a b : Value} {n : Int} (ha : a.integer? = some n)
    (h : a.same b = true) : a = b := by
  cases a with
  | int32 x =>
      cases b with
      | int32 y => exact congrArg _ (beq_iff_eq.mp h)
      | _ => cases h
  | int64 x =>
      cases b with
      | int64 y => exact congrArg _ (beq_iff_eq.mp h)
      | _ => cases h
  | _ => cases ha

/-- An integer of the updated document is read, be it in the old one because nothing has
changed. -/
theorem Update.read_of_apply_increment {updated : Document} {sum : Value} {n : Int}
    (hd : d.WellFormed) (hupdated : updated.WellFormed)
    (h : d.increment path amount = .ok updated) (hread : updated.resolve? path = some sum)
    (hsum : sum.integer? = some n) :
    ∃ changed differs,
      (Update.parse [("$inc", .document [(path, amount)])] >>= fun u => u.apply d) =
        .ok (changed, differs) ∧ changed.resolve? path = some sum := by
  rw [apply_increment, h]
  simp only [Except.map]
  split
  · rename_i hsame
    have hlike := Document.resolve?_of_same hupdated hd hsame path
    rw [hread] at hlike
    obtain ⟨w, hw, hsame⟩ := hlike.exists_of_some
    exact ⟨d, false, rfl, Value.eq_of_same_integer hsum hsame ▸ hw⟩
  · exact ⟨updated, true, rfl, hread⟩

/-- Two integers give their sum, and an error if it does not fit; what is no integer changes
nothing, and a field that is missing is made. -/
theorem Update.increment_exact (hd : d.WellFormed) (path : String) (amount : Value) :
    let applied := Update.parse [("$inc", .document [(path, amount)])] >>= fun u => u.apply d
    (∀ start m n, d.AddsTo path start → start.integer? = some m → amount.integer? = some n →
      FitsInt64 (m + n) → ∃ changed differs sum, applied = .ok (changed, differs) ∧
        changed.resolve? path = some sum ∧ sum.integer? = some (m + n) ∧
        sum.kindName = sumKind start amount (m + n)) ∧
    ((∃ reason, applied = .error (.invalidUpdate reason)) ↔
      (∃ start m n, d.AddsTo path start ∧ start.integer? = some m ∧ amount.integer? = some n ∧
        ¬ FitsInt64 (m + n)) ∨
      d.resolve? path = none ∧ ∃ e, d.set path (.int32 0) = .error e) ∧
    (∀ e, applied = .error e → (∃ reason, e = .invalidUpdate reason) ∧
      d.incrementInPlace path amount = (d, .error e)) ∧
    (∀ start, d.resolve? path = some start →
      (start.integer? = none ∨ amount.integer? = none) → applied = .ok (d, !d.same d)) ∧
    (amount.integer? = none → d.resolve? path = none →
      (∃ created, d.set path (.int32 0) = .ok created) → ∃ changed differs,
        applied = .ok (changed, differs) ∧ changed.resolve? path = some (.int32 0)) := by
  intro applied
  have happlied : applied = (d.increment path amount).map _ := apply_increment d path amount
  refine ⟨fun start m n hstart hm hn hfits => ?_, ?_, fun e h => ?_, fun start hread hother => ?_,
    fun hn hmissing ⟨created, hset⟩ => ?_⟩
  · obtain ⟨opened, hopened, heq, -⟩ := hstart.increment_eq amount
    obtain ⟨updated, sum, hadd, hread, hsum, hkind⟩ := Document.addAt_of_fits hopened hm hn hfits
    have hincrement := heq.trans hadd
    have hupdated : updated.WellFormed := (Document.edits_increment hincrement).wellFormed
      (List.forall_mem_singleton.mpr (Value.wellFormed_of_integer hn)) hd
    obtain ⟨changed, differs, happly, hkept⟩ :=
      read_of_apply_increment hd hupdated hincrement hread hsum
    exact ⟨changed, differs, sum, happly, hkept, hsum, hkind⟩
  · rw [← Document.increment_error_iff]
    constructor
    · rintro ⟨reason, h⟩
      exact ⟨_, map_eq_error_iff.mp (happlied.symm.trans h)⟩
    · rintro ⟨e, h⟩
      obtain ⟨reason, rfl⟩ := Document.invalidUpdate_of_increment h
      exact ⟨reason, happlied.trans (map_eq_error_iff.mpr h)⟩
  · have hincrement := map_eq_error_iff.mp (happlied.symm.trans h)
    refine ⟨Document.invalidUpdate_of_increment hincrement, ?_⟩
    rw [Document.incrementInPlace_eq, hincrement, settled]
  · have hincrement : d.increment path amount = .ok d :=
      (Document.increment_of_present hread).trans (Document.addAt_of_other hother)
    rw [happlied, hincrement]
    cases hsame : d.same d <;> simp only [Except.map, hsame] <;> rfl
  · have hstart : d.AddsTo path (.int32 0) := Or.inr ⟨hmissing, rfl, created, hset⟩
    obtain ⟨opened, hopened, heq, hwellFormed⟩ := hstart.increment_eq amount
    have hincrement := heq.trans (Document.addAt_of_other (Or.inr hn))
    exact read_of_apply_increment hd (hwellFormed hd) hincrement hopened rfl

/-- Over the end of 32 bits in an array, through a null and past the end of the array, and over the
end of 64 bits. -/
theorem Update.increment_exact_nested :
    let d : Document := [("a", .array [.document [("n", .int32 2147483647)], .null]),
      ("a.n", .int64 9223372036854775807)]
    let applied (path : String) (amount : Value) :=
      Update.parse [("$inc", .document [(path, amount)])] >>= fun u => u.apply d
    (∃ changed differs sum, applied "a.0.n" (.int32 1) = .ok (changed, differs) ∧
      changed.resolve? "a.0.n" = some sum ∧ sum.integer? = some 2147483648 ∧
      sum.kindName = "Int64") ∧
    (∃ changed differs sum, applied "a.1.m" (.int64 (-5)) = .ok (changed, differs) ∧
      changed.resolve? "a.1.m" = some sum ∧ sum.integer? = some (-5) ∧ sum.kindName = "Int64") ∧
    (∃ changed differs, applied "a.+3" (.string "x") = .ok (changed, differs) ∧
      changed.resolve? "a.+3" = some (.int32 0)) ∧
    ∃ reason, applied "a.n" (.int32 1) = .error (.invalidUpdate reason) := by
  intro d applied
  have hd : d.WellFormed := by
    simp [d, Document.WellFormed, Value.WellFormed, fieldsWellFormed, allWellFormed]
  have hcreated : ∃ created, d.set "a.1.m" (.int32 0) = .ok created := ⟨_, rfl⟩
  refine ⟨?_, ?_, ?_, ?_⟩
  · exact (increment_exact hd "a.0.n" (.int32 1)).1 (.int32 2147483647) _ _ (Or.inl rfl) rfl rfl
      (by decide)
  · exact (increment_exact hd "a.1.m" (.int64 (-5))).1 (.int32 0) _ _
      (Or.inr ⟨rfl, rfl, hcreated⟩) rfl rfl (by decide)
  · exact (increment_exact hd "a.+3" (.string "x")).2.2.2.2 rfl rfl ⟨_, rfl⟩
  · refine (increment_exact hd "a.n" (.int32 1)).2.1.mpr (Or.inl ?_)
    exact ⟨.int64 9223372036854775807, _, _, Or.inl rfl, rfl, rfl, by decide⟩

end Increment

end DocStore
