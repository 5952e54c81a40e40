import DocStore.Proofs.Fields
import DocStore.Proofs.Meaning
import Mathlib.Data.List.Forall2

/-!
# Operators and their operands

The part of the compiler that does not recurse. The tests that a compiled
operator makes on a value are what the filter says of the value
(`literalHolds_eq`, `compareHolds_eq`, `allHolds_eq`), an operand that compiles
means the same as before (`choiceHolds_of_compile`, `holds_of_compileKinds`,
`holds_of_compileRegex`), and so each operator that carries neither a
constraint nor a filter is read right (`reads_of_compilePlainOperator`).
-/

namespace DocStore

/-! ## Tests on values -/

theorem hexPair_injective {a b : UInt8} (h : hexPair a = hexPair b) : a = b := by
  have hdigit : ∀ m < 16, ∀ n < 16, Nat.digitChar m = Nat.digitChar n → m = n := by decide
  obtain ⟨hhigh, hlow⟩ := List.cons.inj h
  have ha := a.toNat_lt
  have hb := b.toNat_lt
  have hdiv := hdigit _ (by omega) _ (by omega) hhigh
  have hmod := hdigit _ (by omega) _ (by omega) (List.cons.inj hlow).1
  exact UInt8.toNat_inj.mp (by omega)

theorem flatMap_hexPair_injective {xs ys : List UInt8}
    (h : xs.flatMap hexPair = ys.flatMap hexPair) : xs = ys := by
  induction xs generalizing ys with
  | nil =>
      cases ys with
      | nil => rfl
      | cons y ys => cases h
  | cons x xs ih =>
      cases ys with
      | nil => cases h
      | cons y ys =>
          rw [List.flatMap_cons, List.flatMap_cons] at h
          obtain ⟨hpair, hrest⟩ := List.append_inj h rfl
          rw [hexPair_injective hpair, ih hrest]

/-- Distinct identifiers are spelled differently. -/
theorem ObjectId.hex_inj {a b : ObjectId} : a.hex = b.hex ↔ a = b := by
  refine ⟨fun h => ?_, congrArg hex⟩
  have hdigits := congrArg String.toList h
  simp only [hex, DocStore.hex, String.toList_ofList] at hdigits
  cases a
  cases b
  cases flatMap_hexPair_injective hdigits
  rfl

theorem identifierHolds_hex (id : ObjectId) (v : Option Value) :
    identifierHolds id.hex v = Meaning.identifier id v := by
  cases v with
  | none => rfl
  | some v =>
      cases v with
      | objectId other =>
          rw [identifierHolds, Meaning.identifier, Bool.eq_iff_iff, beq_iff_eq, beq_iff_eq,
            ObjectId.hex_inj]
      | _ => rfl

theorem Pattern.holds_eq (p : Pattern) (v : Value) :
    p.holds v = (Meaning.texts v).any p.occursIn := by
  cases v with
  | array items =>
      rw [holds, Meaning.texts, List.any_filterMap]
      refine congrArg items.any (funext fun item => ?_)
      cases item <;> rfl
  | string s => simp [holds, Meaning.texts]
  | symbol s => simp [holds, Meaning.texts]
  | _ => rfl

theorem Pattern.holds_of_compile [Pattern.Engine] {pattern options : String} {p : Pattern}
    (h : Pattern.compile pattern options = .ok p) (v : Value) :
    p.holds v = Meaning.expression pattern options v := by
  rw [Meaning.expression, h]
  exact p.holds_eq v

theorem literalHolds_eq (expected v : Value) :
    literalHolds expected v = Meaning.literal expected v := by
  unfold literalHolds Meaning.literal
  cases v with
  | array items => cases expected <;> simp [Value.isArray, Value.isDocument]
  | binary subtype bytes => cases expected <;> simp [bytesSpell]
  | _ => simp

/-- The orders of a value and an operand that a comparison admits. -/
def Side.admitted (side : Side) (inclusive : Bool) : List Ordering :=
  (match side with
    | above => .gt
    | below => .lt) :: if inclusive then [.eq] else []

theorem comparesTo_eq (side : Side) (inclusive : Bool) (operand v : Value) :
    comparesTo side inclusive operand v =
      (v.compare? operand).any (side.admitted inclusive).contains := by
  rw [comparesTo]
  refine congrArg (Option.any · _) (funext fun o => ?_)
  cases side <;> cases inclusive <;> cases o <;> rfl

theorem compareHolds_eq (side : Side) (inclusive : Bool) (operand v : Value) :
    compareHolds side inclusive operand v =
      Meaning.ordered (side.admitted inclusive) operand v := by
  have hcompares := funext (comparesTo_eq side inclusive operand)
  unfold compareHolds Meaning.ordered
  cases v with
  | array items => cases operand.isArray <;> simp [hcompares, Meaning.listed]
  | _ => simp [hcompares, Meaning.listed]

theorem allHolds_eq (operands : List Value) (v : Value) :
    allHolds operands v = Meaning.containsEach (.array operands) v := by
  unfold Meaning.containsEach
  cases v with
  | array items =>
      cases operands with
      | nil => rfl
      | cons first rest =>
          cases rest with
          | nil => cases first <;> simp [allHolds, containsAll]
          | cons second rest => simp [allHolds, containsAll]
  | _ =>
      cases operands with
      | nil => rfl
      | cons first rest => cases first <;> cases rest <;> simp [allHolds]

/-! ## Operands -/

theorem mapM_forall₂ {α β : Type} {f : α → Except Error β} {xs : List α} {ys : List β}
    (h : xs.mapM f = .ok ys) : List.Forall₂ (fun x y => f x = .ok y) xs ys := by
  induction xs generalizing ys with
  | nil => exact Except.ok.inj h ▸ .nil
  | cons x xs ih =>
      rw [List.mapM_cons] at h
      obtain ⟨y, hy, h⟩ := bind_eq_ok_iff.mp h
      obtain ⟨rest, hrest, h⟩ := bind_eq_ok_iff.mp h
      exact Except.ok.inj h ▸ .cons hy (ih hrest)

theorem any_of_forall₂ {α β : Type} {R : α → β → Prop} {p : α → Bool} {q : β → Bool}
    {xs : List α} {ys : List β} (hR : ∀ x y, R x y → q y = p x) (h : List.Forall₂ R xs ys) :
    ys.any q = xs.any p := by
  induction h with
  | nil => rfl
  | cons hxy _ ih => rw [List.any_cons, List.any_cons, hR _ _ hxy, ih]

theorem holds_of_compileChoice [Pattern.Engine] {settings : Settings} {x : Value} {c : Choice}
    (h : compileChoice settings x = .ok c) (v : Value) :
    c.holds v = Meaning.alternative settings v x := by
  cases x with
  | regex pattern options =>
      obtain ⟨p, hp, rfl⟩ := map_eq_ok_iff.mp h
      exact Pattern.holds_of_compile hp v
  | string s =>
      obtain rfl := Except.ok.inj h
      unfold choiceOfString Meaning.alternative
      cases settings.listPatterns with
      | false => rfl
      | true =>
          simp only [if_true]
          cases Pattern.delimited? s with
          | none => rfl
          | some parts =>
              obtain ⟨pattern, flags⟩ := parts
              dsimp only
              cases hp : Pattern.compile pattern flags with
              | error e => rfl
              | ok p => exact Pattern.holds_of_compile hp v
  | _ => exact Except.ok.inj h ▸ rfl

theorem choiceHolds_of_compile [Pattern.Engine] {settings : Settings} {key : String}
    {operand : Value} {choices : List Choice}
    (h : compileChoices settings key operand = .ok choices) (v : Value) :
    choiceHolds choices v = Meaning.isIn settings operand v := by
  cases operand with
  | array alternatives =>
      have hany : ∀ x, choices.any (Choice.holds x) =
          alternatives.any (Meaning.alternative settings x) := fun x =>
        any_of_forall₂ (fun _ _ hc => holds_of_compileChoice hc x) (mapM_forall₂ h)
      unfold choiceHolds Meaning.isIn
      cases v <;> simp [hany]
  | _ => cases h

theorem holds_of_compileSize {operand : Value} {n : Nat} (h : compileSize operand = .ok n)
    (v : Option Value) : (Operator.size n).holds v = Meaning.hasSize operand v := by
  unfold compileSize at h
  split at h
  · rename_i m hnumber
    obtain rfl := Except.ok.inj h
    cases v with
    | none => rfl
    | some v =>
        cases v with
        | array items =>
            rw [Operator.holds, Meaning.hasSize, hnumber, Bool.eq_iff_iff, beq_iff_eq, beq_iff_eq,
              Option.some.injEq, Int.ofNat.injEq, eq_comm]
        | _ => rfl
  · cases h

theorem includes_of_compileKind {operand : Value} {k : Kind} (h : compileKind operand = .ok k)
    (v : Value) : k.includes v = (kindOf? operand).any (·.includes v) := by
  unfold compileKind at h
  split at h
  · rename_i hkind
    rw [hkind, Option.any_some, Except.ok.inj h]
  · cases h

theorem compileKinds_forall₂ {operand : Value} {kinds : List Kind}
    (h : compileKinds operand = .ok kinds) :
    List.Forall₂ (fun x k => compileKind x = .ok k) (Meaning.listed operand) kinds := by
  unfold compileKinds at h
  split at h
  · exact mapM_forall₂ h
  · rename_i harray
    have hlisted : Meaning.listed operand = [operand] := by
      cases operand with
      | array items => exact absurd rfl (harray items)
      | _ => rfl
    obtain ⟨k, hk, rfl⟩ := map_eq_ok_iff.mp h
    rw [hlisted]
    exact .cons hk .nil

theorem holds_of_compileKinds {operand : Value} {kinds : List Kind}
    (h : compileKinds operand = .ok kinds) (v : Option Value) :
    (Operator.kind kinds).holds v = Meaning.hasKind operand v := by
  rw [Operator.holds, Meaning.hasKind]
  refine congrArg (Option.any · v) (funext fun v => ?_)
  exact any_of_forall₂ (fun _ _ hk => includes_of_compileKind hk v) (compileKinds_forall₂ h)

theorem holds_of_compileRegex [Pattern.Engine] {operand : Value} {whole : Document} {p : Pattern}
    (h : compileRegex operand (whole.get? "$options") = .ok p) (v : Value) :
    p.holds v = Meaning.expressionBeside (Meaning.optionsBeside whole) operand v := by
  obtain ⟨extra, hextra, h⟩ := bind_eq_ok_iff.mp h
  have hbeside : Meaning.optionsBeside whole = extra := by
    unfold Meaning.optionsBeside
    cases hoptions : whole.get? "$options" with
    | none =>
        rw [hoptions] at hextra
        exact Except.ok.inj hextra
    | some options =>
        rw [hoptions] at hextra
        cases options with
        | string flags => exact Except.ok.inj hextra
        | _ => cases hextra
  rw [hbeside]
  cases operand with
  | string pattern => exact Pattern.holds_of_compile h v
  | regex pattern options => exact Pattern.holds_of_compile h v
  | _ => cases h

/-! ## Plain operators -/

/-- The operator is no test for presence, so that it has no last word. -/
def Operator.Yields : Operator → Prop
  | .presence _ => False
  | _ => True

theorem operatorsHold_cons {op : Operator} (h : op.Yields) (v : Option Value)
    (rest : List Operator) :
    operatorsHold v (op :: rest) = (op.holds v && operatorsHold v rest) := by
  cases op with
  | presence expected => exact h.elim
  | _ => rw [operatorsHold]; simp

/-- What an operator is compiled to, if to anything, has the truth value and
leaves the last word to others. -/
def Reads (op : Option Operator) (v : Option Value) (truth : Bool) : Prop :=
  (∀ o ∈ op, o.Yields) ∧ op.all (·.holds v) = truth

theorem Reads.some {op : Operator} {v : Option Value} {truth : Bool} (hyields : op.Yields)
    (h : op.holds v = truth) : Reads (some op) v truth :=
  ⟨fun _ ho => Option.some.inj ho ▸ hyields, h⟩

/-- What `compilePlainOperator` makes of a key other than `$exists`. -/
theorem reads_of_compilePlainOperator [Pattern.Engine] {settings : Settings} {whole : Document}
    {key : String} {operand : Value} {op : Option Operator} (hkey : key ≠ "$exists")
    (h : compilePlainOperator settings whole key operand = .ok op) (v : Option Value) :
    Reads op v
      (Meaning.plainOperator settings (Meaning.optionsBeside whole) key operand v) := by
  unfold compilePlainOperator at h
  split at h
  case h_1 | h_2 | h_3 | h_4 =>
      exact Except.ok.inj h ▸ .some trivial ((compareHolds_eq ..).trans rfl)
  case h_5 | h_6 => exact Except.ok.inj h ▸ .some trivial rfl
  case h_7 =>
      obtain ⟨choices, hchoices, rfl⟩ := map_eq_ok_iff.mp h
      exact .some trivial (choiceHolds_of_compile hchoices _)
  case h_8 =>
      obtain ⟨choices, hchoices, rfl⟩ := map_eq_ok_iff.mp h
      exact .some trivial (congrArg (!·) (choiceHolds_of_compile hchoices _))
  case h_9 => exact absurd rfl hkey
  case h_10 =>
      obtain ⟨n, hn, rfl⟩ := map_eq_ok_iff.mp h
      exact .some trivial (holds_of_compileSize hn v)
  case h_11 =>
      obtain ⟨kinds, hkinds, rfl⟩ := map_eq_ok_iff.mp h
      exact .some trivial (holds_of_compileKinds hkinds v)
  case h_12 =>
      obtain ⟨p, hp, rfl⟩ := map_eq_ok_iff.mp h
      exact .some trivial (holds_of_compileRegex hp _)
  case h_13 =>
      split at h
      · exact Except.ok.inj h ▸ ⟨nofun, rfl⟩
      · cases h
  case h_14 =>
      split at h
      · exact Except.ok.inj h ▸ .some trivial (allHolds_eq ..)
      · cases h
  case h_15 =>
      split at h
      · exact Except.ok.inj h ▸ .some trivial rfl
      · cases h
  case h_16 =>
      obtain ⟨o, ho, rfl⟩ := map_eq_ok_iff.mp h
      unfold compileCustom at ho
      split at ho
      · rename_i test htest
        obtain rfl := Except.ok.inj ho
        refine .some trivial ?_
        unfold Meaning.plainOperator
        dsimp only
        -- None of the built-in names is left.
        split <;> try contradiction
        rw [htest]
        rfl
      · cases ho

end DocStore
