import DocStore.Proofs.Operations
import Mathlib.Algebra.Group.Nat.Defs

/-!
# Pages

A long result can be read page by page, each call skipping what the pages before
it have shown. Finding does not touch the documents, so every call sorts the
same ones in the same way, and a page is a piece of one and the same list
(`Collection.find_cut`). The pages put together are that list
(`Collection.readPages_from`), as far as the number of documents to skip fits into
its word.

The counts are words of 64 bits, of which the limit has a sign. Its least value
has an absolute value that no signed word holds; an unsigned one holds it
(`toNat_limitWord`), so nothing is lost on the way to the counts of the list.
-/

namespace DocStore

/-! ## Skipping and limiting -/

theorem skipFirst_eq_drop {α : Type} (skip : Option UInt64) (items : List α) :
    skipFirst skip items = items.drop (skip.getD 0).toNat := by
  cases skip <;> rfl

theorem limitTo_eq_take {α : Type} {n : Int64} (hn : n ≠ 0) (items : List α) :
    limitTo (some n) items = items.take n.toInt.natAbs := by
  rw [limitTo, if_neg hn]

theorem natAbs_toInt_neg (n : Int64) : (-n).toInt.natAbs = n.toInt.natAbs := by
  have hlow := n.le_toInt
  have hhigh := n.toInt_lt
  rw [Int64.toInt_neg, Int.bmod_def]
  omega

theorem limitTo_neg {α : Type} (n : Int64) (items : List α) :
    limitTo (some (-n)) items = limitTo (some n) items := by
  by_cases hn : n = 0
  · subst hn
    rfl
  · have hneg : -n ≠ 0 := by
      intro hzero
      have habs := natAbs_toInt_neg n
      rw [hzero] at habs
      exact hn (Int64.toInt_inj.mp (Int.natAbs_eq_zero.mp habs.symm))
    rw [limitTo_eq_take hneg, limitTo_eq_take hn, natAbs_toInt_neg]

/-- The limit as a word without a sign. No limit is the largest word. -/
def limitWord : Option Int64 → UInt64
  | none => -1
  | some n => if n = 0 then -1 else if n < 0 then (-n).toUInt64 else n.toUInt64

/-- The absolute value of a limit fits into the word, also that of the least
one, which is its own negative. -/
theorem toNat_limitWord {n : Int64} (hn : n ≠ 0) : (limitWord (some n)).toNat = n.toInt.natAbs := by
  have hint : n.toInt = if 2 * n.toUInt64.toNat < 2 ^ 64 then (n.toUInt64.toNat : Int)
      else n.toUInt64.toNat - (2 ^ 64 : Nat) := BitVec.toInt_eq_toNat_cond n.toBitVec
  have hneg : (-n).toUInt64.toNat = (2 ^ 64 - n.toUInt64.toNat) % 2 ^ 64 :=
    BitVec.toNat_neg n.toBitVec
  have hbound : n.toUInt64.toNat < 2 ^ 64 := n.toUInt64.toNat_lt
  rw [limitWord, if_neg hn]
  split
  · rename_i hsign
    have hsign : n.toInt < 0 := Int64.lt_iff_toInt_lt.mp hsign
    omega
  · rename_i hsign
    have hsign : ¬ n.toInt < 0 := fun h => hsign (Int64.lt_iff_toInt_lt.mpr h)
    omega

/-- On a list that is shorter than words count, both counts go by words. -/
theorem limitTo_skipFirst_eq_words {α : Type} (skip : Option UInt64) (limit : Option Int64)
    {items : List α} (h : items.length < 2 ^ 64) :
    limitTo limit (skipFirst skip items) =
      (items.drop (skip.getD 0).toNat).take (limitWord limit).toNat := by
  have hlargest : (-1 : UInt64).toNat = 2 ^ 64 - 1 := by decide
  have hlength : (skipFirst skip items).length ≤ 2 ^ 64 - 1 := by
    rw [skipFirst_eq_drop, List.length_drop]
    omega
  rw [← skipFirst_eq_drop]
  cases limit with
  | none =>
      rw [limitWord, hlargest]
      exact (List.take_of_length_le hlength).symm
  | some n =>
      by_cases hn : n = 0
      · rw [limitTo, if_pos hn, limitWord, if_pos hn, hlargest]
        exact (List.take_of_length_le hlength).symm
      · rw [limitTo_eq_take hn, toNat_limitWord hn]

/-! ## Pages of a result -/

namespace FindOptions

/-- The same options but for the part of the result that is asked for. -/
def cut (o : FindOptions) (skip : Option UInt64) (limit : Option Int64) : FindOptions :=
  { o with skip, limit }

/-- What there is to cut from. -/
def sorted (o : FindOptions) (documents : List Document) : List Document :=
  match o.sort with
  | none => documents
  | some spec => sortDocuments spec documents

theorem apply_cut (o : FindOptions) (skip : Option UInt64) (limit : Option Int64)
    (documents : List Document) :
    (o.cut skip limit).apply documents = limitTo limit (skipFirst skip (o.sorted documents)) :=
  rfl

/-- The options that ask for a page, the pages being counted from zero. -/
def page (o : FindOptions) (size : Int64) (number : Nat) : FindOptions :=
  o.cut (some (.ofNat (number * size.toInt.toNat))) (some size)

end FindOptions

/-- How many pages begin where a word can count to. -/
def pageCount (size : Nat) : Nat := (2 ^ 64 + size - 1) / size

theorem lt_pageCount_iff {size : Nat} (hsize : 0 < size) (number : Nat) :
    number < pageCount size ↔ number * size < 2 ^ 64 := by
  rw [pageCount, ← Nat.succ_le_iff, Nat.le_div_iff_mul_le hsize, Nat.succ_mul]
  omega

namespace Collection

/-- Asks for one page after the other, until one is empty or begins where no
word can count to, and puts together what was found. -/
def readPages [Pattern.Engine] (c : Collection) (f : Filter) (o : FindOptions) (size : Int64)
    (number : Nat) :
    Collection × Except Error (List Document) :=
  if _h : 0 < size.toInt ∧ number * size.toInt.toNat < 2 ^ 64 then
    match c.find f (some (o.page size number)) with
    | (next, .error e) => (next, .error e)
    | (next, .ok cursor) =>
        if cursor.documents.isEmpty then (next, .ok [])
        else
          let (after, rest) := next.readPages f o size (number + 1)
          (after, rest.map (cursor.documents ++ ·))
  else (c, .ok [])
termination_by 2 ^ 64 - number * size.toInt.toNat
decreasing_by
  rw [Nat.succ_mul]
  omega

variable {c : Collection} {f : Filter} {q : Query}

/-- Whatever part is asked for is cut from the same list. -/
theorem find_cut [Pattern.Engine] (hq : c.compile f = .ok q) (o : FindOptions)
    (skip : Option UInt64) (limit : Option Int64) :
    c.find f (some (o.cut skip limit)) =
      (c.log f (some (o.cut skip limit)),
        .ok ⟨limitTo limit (skipFirst skip (o.sorted (q.select c.documents))),
          c.settings.typeMap.merge (o.typeMap.getD .empty)⟩) := by
  rw [find, run, Option.getD_some, hq, ← FindOptions.apply_cut]
  rfl

theorem find_page [Pattern.Engine] (hq : c.compile f = .ok q) (o : FindOptions) {size : Int64}
    {number : Nat} (hsize : 0 < size.toInt) (hnumber : number * size.toInt.toNat < 2 ^ 64) :
    c.find f (some (o.page size number)) =
      (c.log f (some (o.page size number)),
        .ok ⟨((o.sorted (q.select c.documents)).drop (number * size.toInt.toNat)).take
          size.toInt.toNat, c.settings.typeMap.merge (o.typeMap.getD .empty)⟩) := by
  have hne : size ≠ 0 := by
    rintro rfl
    exact absurd hsize (by decide)
  have habs : size.toInt.natAbs = size.toInt.toNat := by omega
  rw [FindOptions.page, find_cut hq, limitTo_eq_take hne, skipFirst_eq_drop, Option.getD_some,
    UInt64.toNat_ofNat_of_lt' hnumber, habs]

/-- The pages from one on are the rest of the list, as far as words can count. -/
theorem readPages_from [Pattern.Engine] {c : Collection} (hq : c.compile f = .ok q)
    (o : FindOptions) {size : Int64} (hsize : 0 < size.toInt) (number : Nat) :
    (c.readPages f o size number).2 =
      .ok (((o.sorted (q.select c.documents)).drop (number * size.toInt.toNat)).take
        ((pageCount size.toInt.toNat - number) * size.toInt.toNat)) := by
  have hpositive : 0 < size.toInt.toNat := by omega
  rw [readPages]
  split
  · rename_i hreach
    -- The next call is made on the collection with one more query in its log.
    have hrest := readPages_from (c := c.log f (some (o.page size number))) hq o hsize (number + 1)
    have hlt := (lt_pageCount_iff hpositive number).mpr hreach.2
    rw [find_page hq o hsize hreach.2]
    dsimp only
    split
    · rename_i hempty
      rcases List.take_eq_nil_iff.mp (List.isEmpty_iff.mp hempty) with hzero | hnone
      · omega
      · rw [hnone, List.take_nil]
    · have hpages : (pageCount size.toInt.toNat - number) * size.toInt.toNat =
          size.toInt.toNat + (pageCount size.toInt.toNat - (number + 1)) * size.toInt.toNat := by
        rw [Nat.add_comm, ← Nat.succ_mul]
        congr 1
        omega
      rw [hrest, hpages, List.take_add, List.drop_drop, ← Nat.succ_mul]
      rfl
  · rename_i hreach
    have hle : ¬ number < pageCount size.toInt.toNat := fun h =>
      hreach ⟨hsize, (lt_pageCount_iff hpositive number).mp h⟩
    rw [Nat.sub_eq_zero_of_le (Nat.le_of_not_lt hle), Nat.zero_mul, List.take_zero]
termination_by 2 ^ 64 - number * size.toInt.toNat
decreasing_by
  rw [Nat.succ_mul]
  omega

/-- Reading page by page loses and repeats nothing, for all pages that begin
where a word can count to; they hold at least `2 ^ 64` documents. And whatever
part is asked for, it is cut from the same list: a negative limit counts by its
absolute value, zero or none is no limit, and both counts are words. -/
theorem pages_of_whole [Pattern.Engine] (hq : c.compile f = .ok q) (o : FindOptions) {size : Int64}
    (hsize : 0 < size) :
    let whole := o.sorted (q.select c.documents)
    let found (skip : Option UInt64) (limit : Option Int64) :=
      (c.find f (some (o.cut skip limit))).2.map (·.documents)
    found none none = .ok whole ∧
      (c.readPages f o size 0).2 =
        .ok (whole.take (pageCount size.toInt.toNat * size.toInt.toNat)) ∧
      2 ^ 64 ≤ pageCount size.toInt.toNat * size.toInt.toNat ∧
      (whole.length ≤ 2 ^ 64 → (c.readPages f o size 0).2 = found none none) ∧
      ∀ skip,
        (∀ limit, found skip (some (-limit)) = found skip (some limit)) ∧
        found skip none = .ok (whole.drop (skip.getD 0).toNat) ∧
        found skip (some 0) = found skip none ∧
        (∀ limit ≠ 0, found skip (some limit) =
          .ok ((whole.drop (skip.getD 0).toNat).take limit.toInt.natAbs)) ∧
        ∀ limit, whole.length < 2 ^ 64 → found skip limit =
          .ok ((whole.drop (skip.getD 0).toNat).take (limitWord limit).toNat) := by
  intro whole found
  have hfound : ∀ skip limit, found skip limit = .ok (limitTo limit (skipFirst skip whole)) :=
    fun skip limit => by
      simp only [found, find_cut hq]
      rfl
  have hsize : 0 < size.toInt := Int64.lt_iff_toInt_lt.mp hsize
  have hpages : (c.readPages f o size 0).2 =
      .ok (whole.take (pageCount size.toInt.toNat * size.toInt.toNat)) := by
    rw [readPages_from hq o hsize, Nat.zero_mul, List.drop_zero, Nat.sub_zero]
  have hreach : 2 ^ 64 ≤ pageCount size.toInt.toNat * size.toInt.toNat :=
    Nat.le_of_not_lt fun hlt =>
      Nat.lt_irrefl _ ((lt_pageCount_iff (by omega) _).mpr hlt)
  refine ⟨hfound none none, hpages, hreach, fun hlength => ?_, fun skip => ⟨fun limit => ?_, ?_, ?_,
    fun limit hlimit => ?_, fun limit hlength => ?_⟩⟩
  · rw [hpages, hfound, List.take_of_length_le (Nat.le_trans hlength hreach)]
    rfl
  · rw [hfound, hfound, limitTo_neg]
  · rw [hfound, skipFirst_eq_drop]
    rfl
  · rw [hfound, hfound]
    rfl
  · rw [hfound, limitTo_eq_take hlimit, skipFirst_eq_drop]
  · rw [hfound, limitTo_skipFirst_eq_words skip limit hlength]

/-- Three documents in two pages, sorted as a whole. -/
theorem pages_of_whole_three :
    let robot (n : Int32) : Document := [("n", .int32 n)]
    let c := { new (.ofName "robots") with documents := [robot 3, robot 1, robot 2] }
    let o : FindOptions := ⟨some [("n", .int32 1)], none, none, none⟩
    (0 : Int64) < 2 ∧ (c.readPages .empty o 2 0).2 = .ok [robot 1, robot 2, robot 3] := by
  intro robot c o
  have hfirst : sortOrder [("n", .int32 1)] (robot 3) (robot 1) = .gt := rfl
  have hsecond : sortOrder [("n", .int32 1)] (robot 3) (robot 2) = .gt := rfl
  have hthird : sortOrder [("n", .int32 1)] (robot 1) (robot 2) = .lt := rfl
  have hsorted : o.sorted c.documents = [robot 1, robot 2, robot 3] := by
    simp [o, c, FindOptions.sorted, sortDocuments, sortBy, List.mergeSort, hfirst, hsecond, hthird]
  have hlength : (o.sorted c.documents).length ≤ 2 ^ 64 := by
    rw [hsorted]
    decide
  refine ⟨by decide, ?_⟩
  have hpages := pages_of_whole (c := c) (f := .empty) rfl o (by decide : (0 : Int64) < 2)
  rw [hpages.2.2.2.1 hlength, hpages.1]
  exact congrArg Except.ok hsorted

end Collection

end DocStore
