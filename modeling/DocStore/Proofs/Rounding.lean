import DocStore.Double
import Mathlib.Algebra.Group.Nat.Defs

/-!
# Integers as doubles

An integer is compared with a double after it has been rounded. Rounding keeps
the order of integers (`Double.key_ofInt_mono`), though it may make one number of
two, and it never gives NaN (`Double.isNaN_ofInt`).

For a positive integer the significand is the integer in units of the last
place, rounded (`Double.placed`). It lies between `2 ^ 52` and `2 ^ 53`, both
included, so within one power of two the order is that of the significands, and
from one power to the next the exponent decides.
-/

namespace DocStore

namespace Double

/-! ## Rounded quotients -/

theorem roundQuotient_cases (num den : Nat) :
    (roundQuotient num den = num / den ∧ 2 * (num % den) ≤ den) ∨
      (roundQuotient num den = num / den + 1 ∧ den ≤ 2 * (num % den)) := by
  unfold roundQuotient
  dsimp only
  split
  · exact Or.inl ⟨rfl, by omega⟩
  · split
    · exact Or.inr ⟨rfl, by omega⟩
    · rcases Nat.mod_two_eq_zero_or_one (num / den) with heven | hodd
      · exact Or.inl ⟨by omega, by omega⟩
      · exact Or.inr ⟨by omega, by omega⟩

theorem roundQuotient_mono {m n : Nat} (den : Nat) (h : m ≤ n) :
    roundQuotient m den ≤ roundQuotient n den := by
  rcases Nat.lt_or_eq_of_le (Nat.div_le_div_right (c := den) h) with hlt | heq
  · rcases roundQuotient_cases m den with ⟨hm, -⟩ | ⟨hm, -⟩ <;>
      rcases roundQuotient_cases n den with ⟨hn, -⟩ | ⟨hn, -⟩ <;> omega
  · -- Within one unit the remainders decide, and a tie goes the same way for both.
    have hrest : m % den ≤ n % den := by
      have hm := Nat.div_add_mod m den
      have hn := Nat.div_add_mod n den
      rw [heq] at hm
      omega
    unfold roundQuotient
    dsimp only
    rw [heq]
    split <;> split <;> (try split) <;> (try split) <;> omega

theorem roundQuotient_mul {den : Nat} (hden : 0 < den) (n : Nat) :
    roundQuotient (n * den) den = n := by
  unfold roundQuotient
  dsimp only
  rw [Nat.mul_mod_left, Nat.mul_div_cancel _ hden, if_pos (by omega)]

/-! ## Positive integers -/

/-- A positive integer in units of its last place, rounded. -/
def placed (n : Nat) : Nat :=
  if 52 ≤ n.log2 then roundQuotient n (2 ^ (n.log2 - 52)) else n * 2 ^ (52 - n.log2)

theorem lastPlace_one {n : Nat} (hn : n ≠ 0) : lastPlace n 1 = (n.log2 : Int) - 52 := by
  have hone : Nat.log2 1 = 0 := by decide
  have habove : 1 * twoTo n.log2 ≤ n := by
    rw [Nat.one_mul]
    exact Nat.log2_self_le hn
  simp only [lastPlace, hone, Int.ofNat_zero, Int.sub_zero, Int.natCast_nonneg, if_pos,
    Int.toNat_natCast, decide_eq_true habove]
  omega

theorem roundedMagnitude_one {n : Nat} (hn : n ≠ 0) :
    roundedMagnitude n 1 = min infiniteMagnitude ((n.log2 + 1022) * 2 ^ 52 + placed n) := by
  have hexponent : ((n.log2 : Int) - 52 + 1074).toNat = n.log2 + 1022 := by omega
  have hplaced : (if (0 : Int) ≤ (n.log2 : Int) - 52
      then roundQuotient n (1 * twoTo ((n.log2 : Int) - 52).toNat)
      else roundQuotient (n * twoTo (-((n.log2 : Int) - 52)).toNat) 1) = placed n := by
    unfold placed
    by_cases hlarge : 52 ≤ n.log2
    · have hplace : ((n.log2 : Int) - 52).toNat = n.log2 - 52 := by omega
      rw [if_pos hlarge, if_pos (by omega), Nat.one_mul, hplace]
      rfl
    · have hplace : (-((n.log2 : Int) - 52)).toNat = 52 - n.log2 := by omega
      have hround := roundQuotient_mul Nat.one_pos (n * twoTo (52 - n.log2))
      rw [Nat.mul_one] at hround
      rw [if_neg hlarge, if_neg (by omega), hplace, hround]
      rfl
  unfold roundedMagnitude
  simp only [if_neg hn, lastPlace_one hn, hexponent, hplaced]
  rfl

theorem placed_bounds {n : Nat} (hn : n ≠ 0) : 2 ^ 52 ≤ placed n ∧ placed n ≤ 2 ^ 53 := by
  have hlow := Nat.log2_self_le hn
  have hhigh := Nat.lt_log2_self (n := n)
  unfold placed
  split
  · rename_i hlarge
    have hunit : 0 < 2 ^ (n.log2 - 52) := Nat.two_pow_pos _
    have hsplit : ∀ k, 2 ^ k * 2 ^ (n.log2 - 52) = 2 ^ (k + (n.log2 - 52)) :=
      fun k => (Nat.pow_add ..).symm
    constructor
    · rw [← roundQuotient_mul hunit (2 ^ 52), hsplit, Nat.add_sub_cancel' hlarge]
      exact roundQuotient_mono _ hlow
    · have hexponent : 53 + (n.log2 - 52) = n.log2 + 1 := by omega
      rw [← roundQuotient_mul hunit (2 ^ 53), hsplit, hexponent]
      exact roundQuotient_mono _ (Nat.le_of_lt hhigh)
  · rename_i hsmall
    have hunit : 0 < 2 ^ (52 - n.log2) := Nat.two_pow_pos _
    constructor
    · have hexponent : n.log2 + (52 - n.log2) = 52 := by omega
      calc 2 ^ 52 = 2 ^ n.log2 * 2 ^ (52 - n.log2) := by rw [← Nat.pow_add, hexponent]
        _ ≤ n * 2 ^ (52 - n.log2) := Nat.mul_le_mul_right _ hlow
    · have hexponent : n.log2 + 1 + (52 - n.log2) = 53 := by omega
      calc n * 2 ^ (52 - n.log2)
          ≤ 2 ^ (n.log2 + 1) * 2 ^ (52 - n.log2) := Nat.mul_le_mul_right _ (Nat.le_of_lt hhigh)
        _ = 2 ^ 53 := by rw [← Nat.pow_add, hexponent]

theorem placed_mono {m n : Nat} (hlog : m.log2 = n.log2) (h : m ≤ n) : placed m ≤ placed n := by
  unfold placed
  rw [hlog]
  split
  · exact roundQuotient_mono _ h
  · exact Nat.mul_le_mul_right _ h

theorem roundedMagnitude_one_mono {m n : Nat} (h : m ≤ n) :
    roundedMagnitude m 1 ≤ roundedMagnitude n 1 := by
  by_cases hm : m = 0
  · subst hm
    exact Nat.zero_le _
  · have hn : n ≠ 0 := by omega
    rw [roundedMagnitude_one hm, roundedMagnitude_one hn]
    have hlog : m.log2 ≤ n.log2 := (Nat.le_log2 hn).mpr (Nat.le_trans (Nat.log2_self_le hm) h)
    have hword : (m.log2 + 1022) * 2 ^ 52 + placed m ≤ (n.log2 + 1022) * 2 ^ 52 + placed n := by
      rcases Nat.lt_or_eq_of_le hlog with hlt | heq
      · have hupper := (placed_bounds hm).2
        have hlower := (placed_bounds hn).1
        omega
      · have hplaced := placed_mono heq h
        rw [heq]
        omega
    omega

theorem roundedMagnitude_le (num den : Nat) : roundedMagnitude num den ≤ infiniteMagnitude := by
  unfold roundedMagnitude
  split
  · exact Nat.zero_le _
  · exact Nat.min_le_left ..

/-! ## Signs -/

section OfSignMagnitude

variable {magnitude : Nat} (negative : Bool)

theorem toNat_ofSignMagnitude (h : magnitude ≤ infiniteMagnitude) :
    (ofSignMagnitude negative magnitude).bits.toNat =
      if negative then twoTo 63 + magnitude else magnitude := by
  have hinfinite : infiniteMagnitude < twoTo 63 := by decide
  have hword : twoTo 63 + twoTo 63 = 2 ^ 64 := by decide
  refine UInt64.toNat_ofNat_of_lt' (Nat.lt_of_lt_of_eq ?_ hword)
  split <;> omega

theorem magnitude_ofSignMagnitude (h : magnitude ≤ infiniteMagnitude) :
    (ofSignMagnitude negative magnitude).magnitude = magnitude := by
  have hlt : magnitude < twoTo 63 := Nat.lt_of_le_of_lt h (by decide)
  rw [Double.magnitude, toNat_ofSignMagnitude negative h]
  split
  · rw [Nat.add_mod_left, Nat.mod_eq_of_lt hlt]
  · exact Nat.mod_eq_of_lt hlt

theorem isNegative_ofSignMagnitude (h : magnitude ≤ infiniteMagnitude) :
    (ofSignMagnitude negative magnitude).isNegative = negative := by
  have hlt : magnitude < twoTo 63 := Nat.lt_of_le_of_lt h (by decide)
  rw [isNegative, toNat_ofSignMagnitude negative h]
  cases negative
  · exact decide_eq_false (Nat.not_le_of_lt hlt)
  · exact decide_eq_true (Nat.le_add_right ..)

end OfSignMagnitude

theorem isNaN_ofInt (n : Int) : (ofInt n).isNaN = false := by
  have hle := roundedMagnitude_le n.natAbs 1
  rw [isNaN, ofInt, ofRatio, magnitude_ofSignMagnitude _ hle]
  exact decide_eq_false (Nat.not_lt_of_le hle)

theorem key_ofInt (n : Int) :
    (ofInt n).key = if n < 0 then -(roundedMagnitude n.natAbs 1 : Int)
      else roundedMagnitude n.natAbs 1 := by
  have hle := roundedMagnitude_le n.natAbs 1
  rw [key, ofInt, ofRatio, isNegative_ofSignMagnitude _ hle, magnitude_ofSignMagnitude _ hle]
  simp only [decide_eq_true_eq]

/-- A larger integer is not rounded to a smaller double. -/
theorem key_ofInt_mono {m n : Int} (h : m ≤ n) : (ofInt m).key ≤ (ofInt n).key := by
  rw [key_ofInt, key_ofInt]
  split <;> split
  · have hmagnitude := roundedMagnitude_one_mono (m := n.natAbs) (n := m.natAbs) (by omega)
    omega
  · omega
  · omega
  · have hmagnitude := roundedMagnitude_one_mono (m := m.natAbs) (n := n.natAbs) (by omega)
    omega

end Double

end DocStore
