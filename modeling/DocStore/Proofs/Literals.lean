import DocStore.Collection
import DocStore.Proofs.Compilation
import DocStore.Proofs.Reflexivity

/-!
# What a literal matches

A literal stands for itself in a filter (`Value.IsLiteral`), and unless there
is a NaN in it, it matches itself (`Meaning.constraint_self`).

What else it matches is another matter. Identifiers are told apart strictly,
but a literal is looked for loosely. Within a family of values both come to
the same (`Value.looseEq_of_sameFamily`): one and the same kind, both widths of
integer being one, bytes of the same subtype, or object identifiers together
with strings. A value of another family that a literal matches all the same
only looks like it (`Value.looksLike`). There are such: the integer 1 and the
double 1.0, a null and an undefined value, a string and a symbol, a scalar and
an array that has it among its items.
-/

namespace DocStore

/-! ## Matching itself -/

/-- In a filter the value stands for itself. -/
def Value.IsLiteral : Value → Prop
  | .regex _ _ => False
  | .string s => s ≠ "$exists"
  | .document d => Document.hasOperatorKey d = false
  | _ => True

namespace Meaning

variable {settings : Settings} {v expected : Value}

/-- Only object identifiers are looked for in a way of their own. -/
theorem constraint_of_literal [Pattern.Engine] (hliteral : expected.IsLiteral)
    (hother : ∀ id, expected ≠ .objectId id) (v : Option Value) :
    constraint settings v expected = literal expected (v.getD .null) := by
  cases expected with
  | regex pattern options => exact hliteral.elim
  | objectId id => exact absurd rfl (hother id)
  | string s => rw [constraint, if_neg hliteral]
  | document d => rw [constraint, if_neg (Bool.eq_false_iff.mp hliteral)]
  | _ => rfl

theorem literal_self (hv : v.WellFormed) (hfree : v.NaNFree) : literal v v = true := by
  have hself : v.looseEq v = true := Value.looseEq_self hv hfree
  unfold literal
  rw [hself, Bool.true_or, Bool.true_or]

theorem constraint_self [Pattern.Engine] (hliteral : v.IsLiteral) (hv : v.WellFormed)
    (hfree : v.NaNFree) :
    constraint settings (some v) v = true := by
  by_cases hid : ∃ id, v = .objectId id
  · obtain ⟨id, rfl⟩ := hid
    exact beq_self_eq_true id
  · rw [constraint_of_literal hliteral fun id heq => hid ⟨id, heq⟩]
    exact literal_self hv hfree

end Meaning

/-! ## Families -/

/-- The values are of one family. -/
def Value.sameFamily : Value → Value → Bool
  | .binary s _, .binary t _ => s == t
  | a, b => a.isTextual && b.isTextual || Kind.ofValue a == Kind.ofValue b

/-! ### Comparing for equality -/

theorem compare_toInt_beq_eq (a b : Int64) : (compare a.toInt b.toInt == .eq) = (a == b) := by
  rw [Std.compare_beq_eq_beq, Bool.eq_iff_iff, beq_iff_eq, beq_iff_eq, Int64.toInt_inj]

theorem compare_bytes_beq_eq (xs ys : List UInt8) :
    (compare (xs.map UInt8.toNat) (ys.map UInt8.toNat) == .eq) = (xs == ys) := by
  rw [Std.compare_beq_eq_beq, Bool.eq_iff_iff, beq_iff_eq, beq_iff_eq, List.map_inj_right]
  exact fun _ _ => UInt8.toNat_inj.mp

theorem toNat_packed (time increment : UInt32) :
    (time.toUInt64 <<< 32 ||| increment.toUInt64).toNat =
      time.toNat <<< 32 + increment.toNat := by
  have htime : time.toNat < 2 ^ 32 := time.toNat_lt
  have hshift : (time.toUInt64 <<< 32).toNat = time.toNat <<< 32 := by
    have hamount : (32 : UInt64).toNat % 64 = 32 := rfl
    rw [UInt64.toNat_shiftLeft, UInt32.toNat_toUInt64, hamount]
    exact Nat.mod_eq_of_lt (by omega)
  rw [UInt64.toNat_or, hshift, UInt32.toNat_toUInt64,
    ← Nat.shiftLeft_add_eq_or_of_lt increment.toNat_lt]

/-- Both halves of a packed timestamp can be read off it. -/
theorem packTimestamp_inj {t u i j : UInt32} :
    packTimestamp t i = packTimestamp u j ↔ t = u ∧ i = j := by
  constructor
  · intro h
    have hbits : t.toUInt64 <<< 32 ||| i.toUInt64 = u.toUInt64 <<< 32 ||| j.toUInt64 := by
      have hsigned := congrArg Int64.toUInt64 h
      simpa [packTimestamp] using hsigned
    have hnat := congrArg UInt64.toNat hbits
    rw [toNat_packed, toNat_packed] at hnat
    have hi : i.toNat < 2 ^ 32 := i.toNat_lt
    have hj : j.toNat < 2 ^ 32 := j.toNat_lt
    exact ⟨UInt32.toNat_inj.mp (by omega), UInt32.toNat_inj.mp (by omega)⟩
  · rintro ⟨rfl, rfl⟩
    rfl

/-! ### Two equalities in one -/

section Family

variable {a b : Value}

/-- Scalars of one family are loosely equal just if they are the same
identifier. -/
theorem Value.looseEq_of_sameFamily (hscalar : b.isArray = false ∧ b.isDocument = false)
    (h : a.sameFamily b = true) : a.looseEq b = sameIdentifier a b := by
  cases b with
  | array items => cases hscalar.1
  | document fields => cases hscalar.2
  | objectId id =>
      cases a with
      | objectId other =>
          show (other == id) = (other.hex == id.hex)
          rw [Bool.eq_iff_iff, beq_iff_eq, beq_iff_eq, ObjectId.hex_inj]
      | string s => exact Bool.beq_comm
      | _ => cases h
  | string s =>
      cases a with
      | objectId id => rfl
      | string t => exact Std.compare_beq_eq_beq
      | _ => cases h
  | int32 n =>
      cases a with
      | int32 m =>
          show (compare m.toInt64.toInt n.toInt64.toInt == .eq) = (m == n)
          rw [Int32.toInt_toInt64, Int32.toInt_toInt64, Std.compare_beq_eq_beq, Bool.eq_iff_iff, beq_iff_eq,
            beq_iff_eq, Int32.toInt_inj]
      | int64 m => exact compare_toInt_beq_eq m n.toInt64
      | _ => cases h
  | int64 n =>
      cases a with
      | int32 m => exact compare_toInt_beq_eq m.toInt64 n
      | int64 m => exact compare_toInt_beq_eq m n
      | _ => cases h
  | timestamp time increment =>
      cases a with
      | timestamp t i =>
          show (compare (packTimestamp t i).toInt (packTimestamp time increment).toInt == .eq) =
            (t == time && i == increment)
          rw [compare_toInt_beq_eq, Bool.eq_iff_iff, Bool.and_eq_true, beq_iff_eq, beq_iff_eq,
            beq_iff_eq, packTimestamp_inj]
      | _ => cases h
  | binary subtype bytes =>
      cases a with
      | binary s xs =>
          have hsubtype : (s == subtype) = true := h
          show (compare (xs.map UInt8.toNat) (bytes.map UInt8.toNat) == .eq) =
            (s == subtype && xs == bytes)
          rw [compare_bytes_beq_eq, hsubtype, Bool.true_and]
      | _ => cases h
  | boolean x =>
      cases a with
      | boolean y => exact Std.compare_beq_eq_beq
      | _ => cases h
  | dateTime n =>
      cases a with
      | dateTime m => exact compare_toInt_beq_eq m n
      | _ => cases h
  | symbol s =>
      cases a with
      | symbol t => exact Std.compare_beq_eq_beq
      | _ => cases h
  -- Numbers compare numerically either way, and the rest has no order.
  | _ => cases a <;> first | (cases h; done) | rfl

/-- Within the family nothing but loose equality can be at work. -/
theorem Meaning.literal_of_sameFamily (hscalar : b.isArray = false ∧ b.isDocument = false)
    (h : a.sameFamily b = true) : literal b a = a.looseEq b := by
  cases a with
  | array items =>
      cases b with
      | array _ => cases hscalar.1
      | _ => cases h
  | binary subtype bytes =>
      cases b with
      | binary s xs => simp [literal]
      | _ => cases h
  | _ => simp [literal]

end Family

/-! ## Lookalikes -/

/-- The identifier matches the value, which is of another family. -/
def Value.looksLike (taken id : Value) : Bool :=
  match id with
  | .objectId _ => false
  | id => !taken.sameFamily id && Meaning.literal id taken

theorem Value.looksLike_of_sameFamily {taken id : Value} (h : taken.sameFamily id = true) :
    taken.looksLike id = false := by
  unfold looksLike
  split
  · rfl
  · rw [h]
    rfl

theorem sameIdentifier_objectId (taken : Value) (id : ObjectId) :
    sameIdentifier taken (.objectId id) = Meaning.identifier id (some taken) := by
  cases taken with
  | objectId other =>
      show (other.hex == id.hex) = (other == id)
      rw [Bool.eq_iff_iff, beq_iff_eq, beq_iff_eq, ObjectId.hex_inj]
  | _ => rfl

/-- Among the values that are another identifier, a literal matches its
lookalikes. -/
theorem Meaning.constraint_eq_looksLike [Pattern.Engine] {settings : Settings} {taken id : Value}
    (hliteral : id.IsLiteral) (hscalar : id.isArray = false ∧ id.isDocument = false)
    (hother : sameIdentifier taken id = false) :
    constraint settings (some taken) id = taken.looksLike id := by
  by_cases hid : ∃ objectId, id = .objectId objectId
  · obtain ⟨objectId, rfl⟩ := hid
    exact (sameIdentifier_objectId taken objectId).symm.trans hother
  · have hlooks : taken.looksLike id = (!taken.sameFamily id && literal id taken) := by
      cases id with
      | objectId objectId => exact absurd ⟨objectId, rfl⟩ hid
      | _ => rfl
    rw [constraint_of_literal hliteral fun objectId heq => hid ⟨objectId, heq⟩, hlooks]
    cases hfamily : taken.sameFamily id with
    | false => rfl
    | true =>
        show literal id taken = false
        rw [literal_of_sameFamily hscalar hfamily, Value.looseEq_of_sameFamily hscalar hfamily]
        exact hother

example : (Value.int32 1).looksLike (.double ⟨0x3FF0000000000000⟩) = true ∧
    Value.null.looksLike .undefined = true ∧
    (Value.array [.string "a"]).looksLike (.string "a") = true := by decide

end DocStore
