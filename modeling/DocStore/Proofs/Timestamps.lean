import DocStore.Proofs.Literals
import DocStore.Proofs.Ranges

/-!
# The order of timestamps

A timestamp is a time and, among those of one time, an increment. Both are
unsigned, and they are ordered as the digits of a number are
(`Stamp.order_eq_compare`). What is compared is that number as a signed word
(`Stamp.key`), in which the top bit of the time is the sign. Two timestamps of
the same half of the range are therefore in order, and two of different halves
stand exactly the wrong way round (`Stamp.compare_key`).

Comparison, range operators and sorting all go by that word
(`Stamp.compare?_value`, `Stamp.satisfies_range_iff`, `Stamp.pairwise_sortDocuments`).
-/

namespace DocStore

/-- The two parts of a timestamp. -/
structure Stamp where
  time : UInt32
  increment : UInt32
  deriving DecidableEq, Repr

namespace Stamp

def value (s : Stamp) : Value := .timestamp s.time s.increment

/-- By time, then by increment. -/
def order (a b : Stamp) : Ordering :=
  (compare a.time.toNat b.time.toNat).then (compare a.increment.toNat b.increment.toNat)

/-- In the upper half of the range, where the top bit of the time is set. -/
def isLate (s : Stamp) : Bool := twoTo 31 ≤ s.time.toNat

/-- As `order` within each half, but with the upper half before the lower one. -/
def packedOrder (a b : Stamp) : Ordering :=
  if a.isLate = b.isLate then a.order b else (a.order b).swap

/-! ## As numbers -/

/-- The two parts as the digits of one number. -/
def number (s : Stamp) : Int := s.time.toNat * 4294967296 + s.increment.toNat

/-- The signed word that is compared. -/
def key (s : Stamp) : Int := (packTimestamp s.time s.increment).toInt

variable (a b : Stamp)

theorem isLate_iff : a.isLate = true ↔ 9223372036854775808 ≤ a.number := by
  have hincrement := a.increment.toNat_lt
  have hlate : a.isLate = true ↔ 2147483648 ≤ a.time.toNat := decide_eq_true_iff
  rw [hlate, number]
  omega

theorem number_bounds : 0 ≤ a.number ∧ a.number < 18446744073709551616 := by
  have htime := a.time.toNat_lt
  have hincrement := a.increment.toNat_lt
  unfold number
  omega

theorem order_eq_compare : a.order b = compare a.number b.number := by
  have ha := a.increment.toNat_lt
  have hb := b.increment.toNat_lt
  unfold order
  rcases Nat.lt_trichotomy a.time.toNat b.time.toNat with htime | htime | htime
  · have hnumber : a.number < b.number := by unfold number; omega
    rw [Nat.compare_eq_lt.mpr htime, Int.compare_eq_lt.mpr hnumber, Ordering.lt_then]
  · rw [Nat.compare_eq_eq.mpr htime, Ordering.eq_then]
    rcases Nat.lt_trichotomy a.increment.toNat b.increment.toNat with hinc | hinc | hinc
    · have hnumber : a.number < b.number := by unfold number; omega
      rw [Nat.compare_eq_lt.mpr hinc, Int.compare_eq_lt.mpr hnumber]
    · have hnumber : a.number = b.number := by unfold number; omega
      rw [Nat.compare_eq_eq.mpr hinc, Int.compare_eq_eq.mpr hnumber]
    · have hnumber : b.number < a.number := by unfold number; omega
      rw [Nat.compare_eq_gt.mpr hinc, Int.compare_eq_gt.mpr hnumber]
  · have hnumber : b.number < a.number := by unfold number; omega
    rw [Nat.compare_eq_gt.mpr htime, Int.compare_eq_gt.mpr hnumber, Ordering.gt_then]

theorem toInt_toInt64 (w : UInt64) :
    w.toInt64.toInt = if (w.toNat : Int) < 9223372036854775808 then (w.toNat : Int)
      else w.toNat - 18446744073709551616 := by
  have hsigned : w.toInt64.toInt =
      if 2 * w.toNat < 2 ^ 64 then (w.toNat : Int) else w.toNat - (2 ^ 64 : Nat) :=
    BitVec.toInt_eq_toNat_cond _
  rw [hsigned]
  split <;> split <;> omega

/-- The sign takes the whole range away from a late timestamp. -/
theorem key_eq : a.key = if a.isLate then a.number - 18446744073709551616 else a.number := by
  have hnumber :
      ((a.time.toUInt64 <<< 32 ||| a.increment.toUInt64).toNat : Int) = a.number := by
    rw [toNat_packed, Nat.shiftLeft_eq, number]
    omega
  simp only [key, packTimestamp, toInt_toInt64, hnumber, isLate_iff]
  split <;> split <;> omega

theorem compare_congr {x y m n : Int} (hlt : x < y ↔ m < n) (hgt : y < x ↔ n < m) :
    compare x y = compare m n := by
  rcases Int.lt_trichotomy x y with h | h | h
  · rw [Int.compare_eq_lt.mpr h, Int.compare_eq_lt.mpr (hlt.mp h)]
  · rw [Int.compare_eq_eq.mpr h, Int.compare_eq_eq.mpr (by omega)]
  · rw [Int.compare_eq_gt.mpr h, Int.compare_eq_gt.mpr (hgt.mp h)]

/-- Within one half the order of the words is that of the numbers, and across the middle it is the
other way round. -/
theorem compare_key : compare a.key b.key = a.packedOrder b := by
  have ha := a.number_bounds
  have hb := b.number_bounds
  have hhalf : a.isLate = b.isLate ↔
      (9223372036854775808 ≤ a.number ↔ 9223372036854775808 ≤ b.number) := by
    rw [Bool.eq_iff_iff, isLate_iff, isLate_iff]
  have hswap : (compare a.number b.number).swap = compare b.number a.number :=
    Std.OrientedCmp.eq_swap.symm
  by_cases hsame : a.isLate = b.isLate
  · rw [packedOrder, if_pos hsame, order_eq_compare]
    rw [hhalf] at hsame
    simp only [key_eq, isLate_iff]
    apply compare_congr <;> split <;> split <;> omega
  · rw [packedOrder, if_neg hsame, order_eq_compare, hswap]
    rw [hhalf] at hsame
    simp only [key_eq, isLate_iff]
    apply compare_congr <;> split <;> split <;> omega

/-- Two timestamps of different halves have different times, so that one of the two orders is
wrong. -/
theorem packedOrder_eq_iff : a.packedOrder b = a.order b ↔ a.isLate = b.isLate := by
  unfold packedOrder
  split
  · rename_i hsame
    exact iff_of_true rfl hsame
  · rename_i hapart
    refine iff_of_false (fun heq => hapart ?_) hapart
    have htied : a.order b = .eq := by
      revert heq
      cases a.order b <;> decide
    have hnumber : a.number = b.number := by
      rwa [order_eq_compare, Int.compare_eq_eq] at htied
    rw [Bool.eq_iff_iff, isLate_iff, isLate_iff, hnumber]

/-! ## What goes by the word -/

theorem compare?_value : a.value.compare? b.value = some (a.packedOrder b) :=
  congrArg some (a.compare_key b)

theorem sortCompare_value : sortCompare (some a.value) (some b.value) = a.packedOrder b :=
  a.compare_key b

theorem satisfies_range_iff [Pattern.Engine] (settings : Settings) (side : Side)
    (inclusive : Bool) :
    a.value.Satisfies settings (side.key inclusive) b.value ↔
      side.admits inclusive (a.packedOrder b) = true := by
  have hcompare : compareHolds side inclusive b.value a.value =
      comparesTo side inclusive b.value a.value := compareHolds_of_not_array rfl
  rw [Value.satisfies_range_iff, hcompare, comparesTo, compare?_value]
  rfl

/-- Timestamps are totally ordered, so a sort puts them in order. -/
theorem pairwise_sortDocuments {path : String} {direction : Value} {documents : List Document}
    {stamp : Document → Stamp}
    (h : ∀ d ∈ documents, d.resolve? path = some (stamp d).value) :
    (sortDocuments [(path, direction)] documents).Pairwise fun d e =>
      (stamp d).packedOrder (stamp e) ≠ if isDescending direction then .lt else .gt := by
  have hcompare : ∀ d ∈ documents, ∀ e ∈ documents,
      sortCompare (d.resolve? path) (e.resolve? path) = (stamp d).packedOrder (stamp e) := by
    intro d hd e he
    rw [h d hd, h e he, sortCompare_value]
  have htotal : SortsTotally [(path, direction)] (documents.map id) := by
    rw [List.map_id]
    refine sortsTotally_of_key (fun _ d => (stamp d).key) fun key hkey d hd e he => ?_
    obtain rfl := List.mem_singleton.mp hkey
    rw [hcompare d hd e he, compare_key]
  have hmem : ∀ d, d ∈ sortDocuments [(path, direction)] documents → d ∈ documents :=
    fun d => (perm_sortBy [(path, direction)] id documents).mem_iff.mp
  refine (pairwise_sortBy htotal).imp_of_mem fun {d e} hd he hle => ?_
  have hdirected : sortOrder [(path, direction)] d e =
      if isDescending direction then ((stamp d).packedOrder (stamp e)).swap
      else (stamp d).packedOrder (stamp e) := by
    rw [sortOrder, hcompare d (hmem d hd) e (hmem e he)]
    exact Ordering.then_eq
  rw [id, id, hdirected] at hle
  split at hle
  · rename_i hdown
    rw [if_pos hdown]
    exact fun hlt => hle (congrArg Ordering.swap hlt)
  · rename_i hup
    rwa [if_neg hup]

/-- Whatever compares timestamps goes by the time and then the increment within each half of the
range, and the other way round across its middle: the comparison, the order of sorted results, the
range operators and a sort. -/
theorem ordered_within_halves [Pattern.Engine] (settings : Settings) :
    (∀ a b : Stamp,
      a.value.compare? b.value = some (a.packedOrder b) ∧
      sortCompare (some a.value) (some b.value) = a.packedOrder b ∧
      (∀ side inclusive, a.value.Satisfies settings (Side.key side inclusive) b.value ↔
        side.admits inclusive (a.packedOrder b) = true) ∧
      (a.packedOrder b = a.order b ↔ a.isLate = b.isLate)) ∧
    ∀ path direction documents (stamp : Document → Stamp),
      (∀ d ∈ documents, d.resolve? path = some (stamp d).value) →
      (sortDocuments [(path, direction)] documents).Perm documents ∧
      (sortDocuments [(path, direction)] documents).Pairwise fun d e =>
        (stamp d).packedOrder (stamp e) ≠ if isDescending direction then .lt else .gt := by
  refine ⟨fun a b => ⟨compare?_value a b, sortCompare_value a b, ?_, packedOrder_eq_iff a b⟩, ?_⟩
  · exact satisfies_range_iff a b settings
  · intro path direction documents stamp h
    exact ⟨perm_sortBy .., pairwise_sortDocuments h⟩

/-- Two increments of one time, and a time past the middle of the range, sorted downwards. -/
theorem ordered_within_halves_mixed :
    let stamp (d : Document) : Stamp :=
      match d.get? "at" with
      | some (.timestamp time increment) => ⟨time, increment⟩
      | _ => ⟨0, 0⟩
    let documents : List Document :=
      [[("at", .timestamp 5 1)], [("at", .timestamp 0x80000000 0)], [("at", .timestamp 5 2)]]
    (∀ d ∈ documents, d.resolve? "at" = some (stamp d).value) ∧
      (sortDocuments [("at", .int32 (-1))] documents).Pairwise fun d e =>
        (stamp d).packedOrder (stamp e) ≠ .lt := by
  intro stamp documents
  have hstamps : ∀ d ∈ documents, d.resolve? "at" = some (stamp d).value := by
    simp only [documents, List.forall_mem_cons, List.not_mem_nil, false_implies, implies_true,
      and_true]
    exact ⟨rfl, rfl, rfl⟩
  exact ⟨hstamps, ((ordered_within_halves .default).2 "at" (.int32 (-1)) documents stamp hstamps).2⟩

/-- The first time past the middle of the range stands before the time one. -/
theorem not_in_order : ¬ ∀ a b : Stamp, a.value.compare? b.value = some (a.order b) := by
  intro h
  exact absurd (h ⟨0x80000000, 0⟩ ⟨1, 0⟩) (by decide)

end Stamp

end DocStore
