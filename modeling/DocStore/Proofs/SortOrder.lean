import DocStore.Proofs.Reflexivity
import DocStore.Proofs.Rounding
import DocStore.Proofs.Sorting
import DocStore.Value.Scalar

/-!
# The order of sorted results

Sorting takes for granted that the order of the values is total: equal to
itself, the same from both sides and transitive. `sortCompare` is the first two
(`Scalar.order_self`, `Scalar.order_swap`), but it is not transitive, and where
it is not is a `Scalar.Tangle` (`Scalar.tangle_iff`).

The kinds that compare with each other form a band (`Scalar.band`). From one
band to another the rank decides, and most bands are one kind. Numbers and texts
share a band, and in it two scalars are compared in one of three ways
(`Scalar.integers_or_texts_or_mixed`): two integers exactly, two texts letter by
letter, and what is `Scalar.Mixed` by the doubles that they count as
(`Scalar.real?`). Each way is transitive by itself. A tangle takes two of them,
or a number that counts as nothing.
-/

namespace DocStore

namespace Scalar

/-- The order of sort keys. -/
def order (x y : Scalar) : Ordering := (x.compare? y).getD (compare x.rank y.rank)

/-! ## Turned around -/

theorem compareNumbers?_swap (x y : Scalar) :
    y.compareNumbers? x = (x.compareNumbers? y).map .swap := by
  unfold compareNumbers?
  cases x.number? with
  | none =>
      cases y.number? with
      | none => rfl
      | some b =>
          cases x.spelled? with
          | none => rfl
          | some a => exact Double.compare?_swap a b
  | some a =>
      cases y.number? with
      | none =>
          cases y.spelled? with
          | none => rfl
          | some b => exact Double.compare?_swap a b
      | some b => exact Double.compare?_swap a b

theorem compare?_swap (x y : Scalar) : y.compare? x = (x.compare? y).map .swap := by
  fun_cases compare? x y
  case case1 => rfl
  case case7 hnull hboolean hinteger hdate htext hbytes =>
      rw [← compareNumbers?_swap]
      unfold compare?
      split <;> grind
  all_goals exact congrArg some Std.OrientedCmp.eq_swap

theorem order_swap (x y : Scalar) : y.order x = (x.order y).swap := by
  have hrank : compare y.rank x.rank = (compare x.rank y.rank).swap := Std.OrientedCmp.eq_swap
  rw [order, order, compare?_swap, hrank]
  cases x.compare? y <;> rfl

theorem order_self (x : Scalar) : x.order x = .eq := by
  have hswap := order_swap x x
  revert hswap
  cases x.order x <;> simp

/-! ## Numbers and texts -/

/-- What a number, or a text that spells one, counts as. NaN does not count. -/
def real? (x : Scalar) : Option Int :=
  (x.number? <|> x.spelled?).bind fun d => if d.isNaN then none else some d.key

theorem real?_integer (n : Int64) : (integer n).real? = some (Double.ofInt n.toInt).key := by
  simp [real?, number?, Double.isNaN_ofInt]

theorem real?_number_eq_none {d : Double} : (number d).real? = none ↔ d.isNaN = true := by
  simp [real?, number?]

theorem compare?_double (d e : Double) :
    d.compare? e = (if d.isNaN then none else some d.key).bind fun a =>
      (if e.isNaN then none else some e.key).map (compare a) := by
  unfold Double.compare?
  cases d.isNaN <;> cases e.isNaN <;> rfl

/-- With a number on either side, the comparison is that of what the two count as. -/
theorem compareNumbers?_eq {x y : Scalar} (h : x.rank = 1 ∨ y.rank = 1) :
    x.compareNumbers? y = x.real?.bind fun a => y.real?.map (compare a) := by
  have hnumeric : ∀ {z : Scalar}, z.rank = 1 → z.number?.isSome := by
    intro z hz
    cases z <;> first | rfl | cases hz
  unfold compareNumbers? real?
  cases hx : x.number? with
  | some d =>
      cases y.number? with
      | some e => exact compare?_double d e
      | none =>
          cases y.spelled? with
          | some e => exact compare?_double d e
          | none => cases d.isNaN <;> simp
  | none =>
      cases hy : y.number? with
      | none =>
          rcases h with h | h
          · simpa [hx] using hnumeric h
          · simpa [hy] using hnumeric h
      | some e =>
          cases x.spelled? with
          | some d => exact compare?_double d e
          | none => simp

/-- A number and a number or text, not two integers. -/
inductive Mixed : Scalar → Scalar → Prop where
  | numbers {d e : Double} : Mixed (number d) (number e)
  | toInteger {d : Double} {n : Int64} : Mixed (number d) (integer n)
  | ofInteger {n : Int64} {d : Double} : Mixed (integer n) (number d)
  | toText {x : Scalar} {t : String} (hx : x.rank = 1) : Mixed x (text t)
  | ofText {s : String} {y : Scalar} (hy : y.rank = 1) : Mixed (text s) y

theorem Mixed.compare? {x y : Scalar} (h : Mixed x y) :
    x.compare? y = x.real?.bind fun a => y.real?.map (compare a) := by
  have hnumeric : x.rank = 1 ∨ y.rank = 1 := by
    cases h with
    | toText hx => exact Or.inl hx
    | ofText hy => exact Or.inr hy
    | _ => exact Or.inl rfl
  rw [← compareNumbers?_eq hnumeric]
  cases h with
  | toText hx => cases x <;> first | rfl | cases hx
  | ofText hy => cases y <;> first | rfl | cases hy
  | _ => rfl

theorem Mixed.order_real {x y : Scalar} {a b : Int} (h : Mixed x y) (hx : x.real? = some a)
    (hy : y.real? = some b) : x.order y = compare a b := by
  rw [order, h.compare?, hx, hy]
  rfl

theorem Mixed.order_unreal {x y : Scalar} (h : Mixed x y)
    (hnone : x.real? = none ∨ y.real? = none) : x.order y = compare x.rank y.rank := by
  have hcompare : x.compare? y = none := by
    rw [h.compare?]
    rcases hnone with hx | hy
    · rw [hx]
      rfl
    · rw [hy]
      cases x.real? <;> rfl
  rw [order, hcompare]
  rfl

/-- Numbers and texts are compared exactly, as texts, or by what they count as. -/
theorem integers_or_texts_or_mixed {x y : Scalar} (hx : x.rank = 1 ∨ x.rank = 2)
    (hy : y.rank = 1 ∨ y.rank = 2) :
    (∃ m n, x = integer m ∧ y = integer n) ∨ (∃ s t, x = text s ∧ y = text t) ∨ Mixed x y := by
  have hnumeric : ∀ {z : Scalar}, z.rank = 1 → (∃ n, z = integer n) ∨ ∃ d, z = number d := by
    intro z hz
    cases z <;> first | exact Or.inl ⟨_, rfl⟩ | exact Or.inr ⟨_, rfl⟩ | cases hz
  have htext : ∀ {z : Scalar}, z.rank = 2 → ∃ s, z = text s := by
    intro z hz
    cases z <;> first | exact ⟨_, rfl⟩ | cases hz
  rcases hx with hx | hx
  · rcases hy with hy | hy
    · rcases hnumeric hx with ⟨m, rfl⟩ | ⟨d, rfl⟩ <;> rcases hnumeric hy with ⟨n, rfl⟩ | ⟨e, rfl⟩
      · exact Or.inl ⟨m, n, rfl, rfl⟩
      · exact Or.inr (Or.inr .ofInteger)
      · exact Or.inr (Or.inr .toInteger)
      · exact Or.inr (Or.inr .numbers)
    · obtain ⟨t, rfl⟩ := htext hy
      exact Or.inr (Or.inr (.toText hx))
  · obtain ⟨s, rfl⟩ := htext hx
    rcases hy with hy | hy
    · exact Or.inr (Or.inr (.ofText hy))
    · obtain ⟨t, rfl⟩ := htext hy
      exact Or.inr (Or.inl ⟨s, t, rfl, rfl⟩)

theorem rank_text (s : String) : (text s).rank = 2 := rfl

section Counted

variable {x y : Scalar} {a b : Int}

/-- What is not greater does not count as more: rounding may make two integers equal, but
never the smaller one greater. -/
theorem real_le (hnumber : x.rank = 1 ∨ y.rank = 1) (ha : x.real? = some a)
    (hb : y.real? = some b) (h : x.order y ≠ .gt) : a ≤ b := by
  have hband : ∀ {z : Scalar} {c : Int}, z.real? = some c → z.rank = 1 ∨ z.rank = 2 := by
    intro z c hz
    cases z <;> first | exact Or.inl rfl | exact Or.inr rfl | cases hz
  rcases integers_or_texts_or_mixed (hband ha) (hband hb) with
    ⟨m, n, rfl, rfl⟩ | ⟨s, t, rfl, rfl⟩ | hmixed
  · rw [real?_integer, Option.some.injEq] at ha hb
    subst ha hb
    exact Double.key_ofInt_mono (Int.compare_ne_gt.mp h)
  · rcases hnumber with hx | hy
    · cases hx
    · cases hy
  · rw [hmixed.order_real ha hb] at h
    exact Int.compare_ne_gt.mp h

/-- Only integers that count as the same double can be greater without counting as more. -/
theorem gt_real (hx : x.rank = 1) (hy : y.rank = 1) (h : x.order y = .gt) :
    ∃ a b, x.real? = some a ∧ y.real? = some b ∧
      (b < a ∨ b = a ∧ ∃ m n, x = integer m ∧ y = integer n ∧ n.toInt < m.toInt) := by
  rcases integers_or_texts_or_mixed (Or.inl hx) (Or.inl hy) with
    ⟨m, n, rfl, rfl⟩ | ⟨s, t, rfl, -⟩ | hmixed
  · have hlt : n.toInt < m.toInt := Int.compare_eq_gt.mp h
    refine ⟨_, _, real?_integer m, real?_integer n, ?_⟩
    rcases Int.lt_or_eq_of_le (Double.key_ofInt_mono (Int.le_of_lt hlt)) with hkey | hkey
    · exact Or.inl hkey
    · exact Or.inr ⟨hkey, m, n, rfl, rfl, hlt⟩
  · cases hx
  · cases hxreal : x.real? with
    | none =>
        rw [hmixed.order_unreal (Or.inl hxreal), hx, hy] at h
        cases h
    | some a =>
        cases hyreal : y.real? with
        | none =>
            rw [hmixed.order_unreal (Or.inr hyreal), hx, hy] at h
            cases h
        | some b =>
            rw [hmixed.order_real hxreal hyreal] at h
            exact ⟨a, b, rfl, rfl, Or.inl (Int.compare_eq_gt.mp h)⟩

/-- A number is greater than a text only as a number. -/
theorem gt_text_iff {t : String} (hx : x.rank = 1) :
    x.order (text t) = .gt ↔ ∃ a b, x.real? = some a ∧ (text t).real? = some b ∧ b < a := by
  have hmixed : Mixed x (text t) := .toText hx
  cases hxreal : x.real? with
  | none => simp [hmixed.order_unreal (Or.inl hxreal), hx, rank_text, Nat.compare_eq_gt]
  | some a =>
      cases htreal : (text t).real? with
      | none => simp [hmixed.order_unreal (Or.inr htreal), hx, rank_text, Nat.compare_eq_gt]
      | some b => simp [hmixed.order_real hxreal htreal, Int.compare_eq_gt]

/-- A text is not greater than a number only if both count, and then as a number. -/
theorem text_le_iff {s : String} (hy : y.rank = 1) :
    (text s).order y ≠ .gt ↔ ∃ a b, (text s).real? = some a ∧ y.real? = some b ∧ a ≤ b := by
  have hmixed : Mixed (text s) y := .ofText hy
  cases hsreal : (text s).real? with
  | none => simp [hmixed.order_unreal (Or.inl hsreal), hy, rank_text, Nat.compare_eq_gt]
  | some a =>
      cases hyreal : y.real? with
      | none => simp [hmixed.order_unreal (Or.inr hyreal), hy, rank_text, Nat.compare_eq_gt]
      | some b => simp [hmixed.order_real hsreal hyreal, Int.compare_ne_gt]

theorem le_text_iff {t : String} (hx : x.rank = 1) :
    x.order (text t) ≠ .gt ↔ ∀ a b, x.real? = some a → (text t).real? = some b → a ≤ b := by
  simp only [ne_eq, gt_text_iff hx, not_exists, not_and, Int.not_lt]

theorem text_gt_iff {s : String} (hy : y.rank = 1) :
    (text s).order y = .gt ↔ ∀ a b, (text s).real? = some a → y.real? = some b → b < a := by
  rw [← not_iff_not]
  simp only [text_le_iff hy, not_forall, Int.not_lt, exists_prop]

end Counted

/-! ## Kinds apart -/

/-- Numbers and texts are one band; every other kind is a band of its own. -/
def band (x : Scalar) : Nat := if x.rank = 2 then 1 else x.rank

theorem compare?_of_band_ne {x y : Scalar} (h : x.band ≠ y.band) : x.compare? y = none := by
  cases x <;> cases y <;> first | exact absurd rfl h | rfl

theorem order_of_band_lt {x y : Scalar} (h : x.band < y.band) : x.order y = .lt := by
  have hrank : x.rank < y.rank := by
    unfold band at h
    split at h <;> split at h <;> omega
  rw [order, compare?_of_band_ne (Nat.ne_of_lt h)]
  exact Nat.compare_eq_lt.mpr hrank

theorem band_le_of_order {x y : Scalar} (h : x.order y ≠ .gt) : x.band ≤ y.band := by
  rcases Nat.lt_or_ge y.band x.band with hlt | hge
  · rw [order_swap, order_of_band_lt hlt] at h
    exact absurd rfl h
  · exact hge

/-- Outside the band of numbers and texts a band is one kind, and its order is transitive. -/
theorem order_trans_of_band {x y z : Scalar} (hxy : x.band = y.band) (hyz : y.band = z.band)
    (hband : x.band ≠ 1) (hle : x.order y ≠ .gt) (hle' : y.order z ≠ .gt) : x.order z ≠ .gt := by
  cases x with
  | integer | number | text => exact absurd rfl hband
  | null | other =>
      cases y <;> cases hxy
      exact hle'
  | boolean =>
      cases y <;> cases hxy
      cases z <;> cases hyz
      exact @Std.TransCmp.le_trans Bool compare _ _ _ _ hle hle'
  | dateTime =>
      cases y <;> cases hxy
      cases z <;> cases hyz
      exact @Std.TransCmp.le_trans Int compare _ _ _ _ hle hle'
  | bytes =>
      cases y <;> cases hxy
      cases z <;> cases hyz
      exact @Std.TransCmp.le_trans (List Nat) compare _ _ _ _ hle hle'

/-! ## Where the order is not transitive -/

/-- Three scalars, none greater than the next, of which the first is greater than the last. -/
inductive Tangle : Scalar → Scalar → Scalar → Prop where
  /-- Integers are compared with each other exactly, but with a double, or with a text, as the
  doubles that they round to. -/
  | rounded {m n : Int64} {y : Scalar} (hlt : n.toInt < m.toInt) (hy : ∀ k, y ≠ integer k)
      (hm : (integer m).real? = y.real?) (hn : (integer n).real? = y.real?) :
      Tangle (integer m) y (integer n)
  /-- NaN is equal to every number, and less than every text. -/
  | nanBetween {x z : Scalar} {d : Double} (hd : d.isNaN = true) (hx : x.rank = 1)
      (hz : z.rank = 1 ∨ z.rank = 2) (hgt : x.order z = .gt) : Tangle x (number d) z
  | nanLast {s : String} {y : Scalar} {d : Double} {a b : Int} (hd : d.isNaN = true)
      (hs : (text s).real? = some a) (hy : y.rank = 1) (hb : y.real? = some b) (hab : a ≤ b) :
      Tangle (text s) y (number d)
  /-- Texts are compared with each other letter by letter, but with a number as the numbers
  that they spell, or as greater where they spell none. -/
  | numberFirst {x : Scalar} {s t : String} {a c : Int} (hx : x.rank = 1) (ha : x.real? = some a)
      (hs : ∀ b, (text s).real? = some b → a ≤ b) (hst : compare s t ≠ .gt)
      (hc : (text t).real? = some c) (hca : c < a) : Tangle x (text s) (text t)
  | numberBetween {s t : String} {y : Scalar} {a b : Int} (hs : (text s).real? = some a)
      (hy : y.rank = 1) (hb : y.real? = some b) (hab : a ≤ b)
      (ht : ∀ c, (text t).real? = some c → b ≤ c) (hst : compare s t = .gt) :
      Tangle (text s) y (text t)
  | numberLast {s t : String} {z : Scalar} {b c : Int}
      (hs : ∀ a, (text s).real? = some a → c < a) (hst : compare s t ≠ .gt)
      (ht : (text t).real? = some b) (hz : z.rank = 1) (hc : z.real? = some c) (hbc : b ≤ c) :
      Tangle (text s) (text t) z

section Tangles

variable {x y z : Scalar}

theorem real?_isSome_or_nan (hx : x.rank = 1) :
    (∃ a, x.real? = some a) ∨ ∃ d, x = number d ∧ d.isNaN = true := by
  cases hreal : x.real? with
  | some a => exact Or.inl ⟨a, rfl⟩
  | none =>
      cases x <;> cases hx
      · rw [real?_integer] at hreal
        cases hreal
      · exact Or.inr ⟨_, rfl, real?_number_eq_none.mp hreal⟩

theorem order_nan {d : Double} (hd : d.isNaN = true) (hx : x.rank = 1) :
    x.order (number d) = .eq := by
  have hmixed : Mixed x (number d) := by
    cases x <;> cases hx
    · exact .ofInteger
    · exact .numbers
  rw [hmixed.order_unreal (Or.inr (real?_number_eq_none.mpr hd)), hx]
  rfl

theorem order_rounded {m : Int64} (hy : ∀ k, y ≠ integer k) (hm : (integer m).real? = y.real?) :
    (integer m).order y = .eq := by
  have ha := real?_integer m
  have hmixed : Mixed (integer m) y := by
    cases y with
    | integer k => exact absurd rfl (hy k)
    | number d => exact .ofInteger
    | text t => exact .toText rfl
    | _ => cases ha.symm.trans hm
  rw [hmixed.order_real ha (hm.symm.trans ha)]
  exact Std.ReflCmp.compare_self

/-! ### Each tangle is one -/

theorem Tangle.not_gt (h : Tangle x y z) : x.order y ≠ .gt := by
  cases h with
  | rounded _ hy hm _ =>
      rw [order_rounded hy hm]
      decide
  | nanBetween hd hx _ _ =>
      rw [order_nan hd hx]
      decide
  | nanLast _ hs hy hb hab => exact (text_le_iff hy).mpr ⟨_, _, hs, hb, hab⟩
  | numberFirst hx ha hs _ _ _ =>
      refine (le_text_iff hx).mpr fun a' b ha' hb => ?_
      cases ha.symm.trans ha'
      exact hs b hb
  | numberBetween hs hy hb hab _ _ => exact (text_le_iff hy).mpr ⟨_, _, hs, hb, hab⟩
  | numberLast _ hst _ _ _ _ => exact hst

theorem Tangle.next_not_gt (h : Tangle x y z) : y.order z ≠ .gt := by
  cases h with
  | rounded _ hy _ hn =>
      rw [order_swap, order_rounded hy hn]
      decide
  | nanBetween hd _ hz _ =>
      rcases hz with hz | hz
      · rw [order_swap, order_nan hd hz]
        decide
      · cases z <;> cases hz
        refine (le_text_iff rfl).mpr fun a b ha _ => ?_
        rw [real?_number_eq_none.mpr hd] at ha
        cases ha
  | nanLast hd _ hy _ _ =>
      rw [order_nan hd hy]
      decide
  | numberFirst _ _ _ hst _ _ => exact hst
  | numberBetween _ hy hb _ ht _ =>
      refine (le_text_iff hy).mpr fun b' c hb' hc => ?_
      cases hb.symm.trans hb'
      exact ht c hc
  | numberLast _ _ ht hz hc hbc => exact (text_le_iff hz).mpr ⟨_, _, ht, hc, hbc⟩

theorem Tangle.gt (h : Tangle x y z) : x.order z = .gt := by
  cases h with
  | rounded hlt => exact Int.compare_eq_gt.mpr hlt
  | nanBetween _ _ _ hgt => exact hgt
  | nanLast hd _ _ _ _ =>
      refine (text_gt_iff rfl).mpr fun a b _ hb => ?_
      rw [real?_number_eq_none.mpr hd] at hb
      cases hb
  | numberFirst hx ha _ _ hc hca => exact (gt_text_iff hx).mpr ⟨_, _, ha, hc, hca⟩
  | numberBetween _ _ _ _ _ hst => exact hst
  | numberLast hs _ _ hz hc _ =>
      refine (text_gt_iff hz).mpr fun a c' ha hc' => ?_
      cases hc.symm.trans hc'
      exact hs a ha

/-! ### There are no others -/

theorem tangle_of_numbers (hx : x.rank = 1) (hz : z.rank = 1) (hxy : x.order y ≠ .gt)
    (hyz : y.order z ≠ .gt) (hgt : x.order z = .gt) (hy : y.rank = 1 ∨ y.rank = 2) :
    Tangle x y z := by
  have hreal : (∃ b, y.real? = some b) ∨ ∃ d, y = number d ∧ d.isNaN = true := by
    rcases hy with hy | hy
    · exact real?_isSome_or_nan hy
    · cases y <;> cases hy
      obtain ⟨b, -, hb, -⟩ := (text_le_iff hz).mp hyz
      exact Or.inl ⟨b, hb⟩
  rcases hreal with ⟨b, hb⟩ | ⟨d, rfl, hd⟩
  · obtain ⟨a, c, ha, hc, hca⟩ := gt_real hx hz hgt
    have hab : a ≤ b := real_le (Or.inl hx) ha hb hxy
    have hbc : b ≤ c := real_le (Or.inr hz) hb hc hyz
    rcases hca with hca | ⟨rfl, m, n, rfl, rfl, hlt⟩
    · omega
    · obtain rfl : b = c := by omega
      refine .rounded hlt ?_ (ha.trans hb.symm) (hc.trans hb.symm)
      rintro k rfl
      have hmk : m.toInt ≤ k.toInt := Int.compare_ne_gt.mp hxy
      have hkn : k.toInt ≤ n.toInt := Int.compare_ne_gt.mp hyz
      omega
  · exact .nanBetween hd hx (Or.inl hz) hgt

theorem tangle_of_first_text {s : String} (hxy : (text s).order y ≠ .gt) (hyz : y.order z ≠ .gt)
    (hgt : (text s).order z = .gt) (hy : y.rank = 1 ∨ y.rank = 2) (hz : z.rank = 1 ∨ z.rank = 2) :
    Tangle (text s) y z := by
  rcases hy with hy | hy
  · obtain ⟨a, b, ha, hb, hab⟩ := (text_le_iff hy).mp hxy
    rcases hz with hz | hz
    · rcases real?_isSome_or_nan hz with ⟨c, hc⟩ | ⟨d, rfl, hd⟩
      · have hbc : b ≤ c := real_le (Or.inl hy) hb hc hyz
        have hca : c < a := (text_gt_iff hz).mp hgt a c ha hc
        omega
      · exact .nanLast hd ha hy hb hab
    · cases z <;> cases hz
      exact .numberBetween ha hy hb hab (fun c hc => (le_text_iff hy).mp hyz b c hb hc) hgt
  · cases y <;> cases hy
    rcases hz with hz | hz
    · obtain ⟨b, c, hb, hc, hbc⟩ := (text_le_iff hz).mp hyz
      exact .numberLast (fun a ha => (text_gt_iff hz).mp hgt a c ha hc) hxy hb hz hc hbc
    · cases z <;> cases hz
      exact absurd hgt (@Std.TransCmp.le_trans String compare _ _ _ _ hxy hyz)

theorem tangle_of_last_text {t : String} (hxy : x.order y ≠ .gt) (hyz : y.order (text t) ≠ .gt)
    (hgt : x.order (text t) = .gt) (hx : x.rank = 1) (hy : y.rank = 1 ∨ y.rank = 2) :
    Tangle x y (text t) := by
  obtain ⟨a, c, ha, hc, hca⟩ := (gt_text_iff hx).mp hgt
  rcases hy with hy | hy
  · rcases real?_isSome_or_nan hy with ⟨b, hb⟩ | ⟨d, rfl, hd⟩
    · have hab : a ≤ b := real_le (Or.inl hx) ha hb hxy
      have hbc : b ≤ c := (le_text_iff hy).mp hyz b c hb hc
      omega
    · exact .nanBetween hd hx (Or.inr rfl) hgt
  · cases y <;> cases hy
    exact .numberFirst hx ha (fun b hb => (le_text_iff hx).mp hxy a b ha hb) hyz hc hca

theorem tangle_iff :
    Tangle x y z ↔ x.order y ≠ .gt ∧ y.order z ≠ .gt ∧ x.order z = .gt := by
  refine ⟨fun h => ⟨h.not_gt, h.next_not_gt, h.gt⟩, fun ⟨hxy, hyz, hgt⟩ => ?_⟩
  have hbands : x.band = y.band ∧ y.band = z.band := by
    have hlow := band_le_of_order hxy
    have hhigh := band_le_of_order hyz
    have hnot : ¬ x.band < z.band := fun hlt => by
      rw [order_of_band_lt hlt] at hgt
      cases hgt
    omega
  by_cases hband : x.band = 1
  · have hrank : ∀ {w : Scalar}, w.band = 1 → w.rank = 1 ∨ w.rank = 2 := by
      intro w hw
      unfold band at hw
      split at hw <;> omega
    have hy := hrank (hbands.1.symm.trans hband)
    have hz := hrank (hbands.2.symm.trans (hbands.1.symm.trans hband))
    rcases hrank hband with hx | hx
    · rcases hz with hz | hz
      · exact tangle_of_numbers hx hz hxy hyz hgt hy
      · cases z <;> cases hz
        exact tangle_of_last_text hxy hyz hgt hx hy
    · cases x <;> cases hx
      exact tangle_of_first_text hxy hyz hgt hy hz
  · exact absurd hgt (order_trans_of_band hbands.1 hbands.2 hband hxy hyz)

end Tangles

end Scalar

/-- The order of sorted results answers the same from both sides, and it is transitive except on
tangles. -/
theorem sortCompare_preorder_iff (a b c : Option Value) :
    sortCompare a a = .eq ∧ sortCompare b a = (sortCompare a b).swap ∧
      ((sortCompare a b ≠ .gt → sortCompare b c ≠ .gt → sortCompare a c ≠ .gt) ↔
        ¬ (sortKey a).Tangle (sortKey b) (sortKey c)) := by
  refine ⟨(sortKey a).order_self, (sortKey a).order_swap (sortKey b), ?_⟩
  rw [Scalar.tangle_iff, not_and, not_and]
  rfl

/-- A double is equal to two integers of which one is greater. -/
theorem sortCompare_not_trans :
    ¬ ∀ a b c : Option Value,
      sortCompare a b ≠ .gt → sortCompare b c ≠ .gt → sortCompare a c ≠ .gt := by
  intro htrans
  exact htrans (some (.int64 9007199254740993)) (some (.double ⟨0x4340000000000000⟩))
    (some (.int64 9007199254740992)) (by decide) (by decide) (by decide)

/-- A number stands between two texts that stand the other way round as texts. -/
example : sortCompare (some (.string "9")) (some (.int32 9)) = .eq ∧
    sortCompare (some (.int32 9)) (some (.string "10")) = .lt ∧
    sortCompare (some (.string "9")) (some (.string "10")) = .gt := by decide

/-- Documents sort by these paths as they should if and only if no three of them are tangled. -/
theorem sortsTotally_iff {spec : Document} {documents : List Document} :
    SortsTotally spec documents ↔ ∀ path ∈ spec.keys, ∀ a ∈ documents, ∀ b ∈ documents,
      ∀ c ∈ documents, ¬ (sortKey (a.resolve? path)).Tangle (sortKey (b.resolve? path))
        (sortKey (c.resolve? path)) := by
  refine ⟨fun htotal path hpath a ha b hb c hc htangle => ?_, fun huntangled path hpath => ?_⟩
  · have htrans := (htotal path hpath).isLE_trans (a := ⟨a, ha⟩) (b := ⟨b, hb⟩) (c := ⟨c, hc⟩)
    simp only [Ordering.isLE_iff_ne_gt] at htrans
    exact htrans htangle.not_gt htangle.next_not_gt htangle.gt
  · refine { eq_swap := ?_, isLE_trans := ?_ }
    · intro a b
      exact Scalar.order_swap _ _
    · intro a b c hab hbc
      rw [Ordering.isLE_iff_ne_gt] at *
      intro hgt
      exact huntangled path hpath a.1 a.2 b.1 b.2 c.1 c.2 (Scalar.tangle_iff.mpr ⟨hab, hbc, hgt⟩)

end DocStore
