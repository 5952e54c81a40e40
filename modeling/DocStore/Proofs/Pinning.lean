import DocStore.Proofs.ReadBack
import DocStore.Proofs.Upserts

/-!
# What a filter pins

An upsert starts from the fields that its filter pins, and the compiler makes an
equality of the same entries: an identifier, a literal, or the one operator
`$eq` (`Constraint.isEquality`). The two tell them apart on their own, but they
agree (`Filter.pinned_iff_equality`), and what is pinned satisfies the
constraint.

They differ under one key. Where an entry is a group, since its key is a number
and its value a document, the compiler asks for a nonempty key and the upsert
does not. So a document under the empty key is an equality, but it is not pinned
(`Filter.not_pinned_under_empty`): what an upsert inserts for such a filter does
not satisfy it.
-/

namespace DocStore

/-! ## Equalities among the constraints -/

/-- The constraint asks for a field that is equal to something. -/
def Constraint.isEquality : Constraint → Bool
  | .identifier _ => true
  | .literal _ => true
  | .operators [.equal _] => true
  | _ => false

section Operators

variable {settings : Settings} {whole fields : Document} {key : String} {operand : Value}
  {op : Option Operator} {ops : List Operator}

/-- What one field of an operator document becomes: nothing if it holds the
options of a pattern, an equality if it is `$eq`, and else something that is no
equality. -/
inductive Operator.From (whole : Document) : String → Value → Option Operator → Prop where
  | options {key : String} (hkey : key = "$options") (hregex : whole.contains "$regex" = true)
      (operand : Value) : From whole key operand none
  | equal {key : String} (hkey : key = "$eq") (operand : Value) :
      From whole key operand (some (.equal operand))
  | other {key : String} {op : Operator} (hkey : key ≠ "$options" ∧ key ≠ "$eq")
      (hop : ∀ v, op ≠ .equal v) (operand : Value) : From whole key operand (some op)

variable [Pattern.Engine]

theorem from_of_compilePlainOperator
    (h : compilePlainOperator settings whole key operand = .ok op) :
    Operator.From whole key operand op := by
  unfold compilePlainOperator at h
  split at h
  case h_5 => exact Except.ok.inj h ▸ .equal rfl operand
  case h_13 =>
      split at h
      · rename_i hregex
        exact Except.ok.inj h ▸ .options rfl hregex operand
      · cases h
  case h_14 | h_15 =>
      split at h
      · exact Except.ok.inj h ▸ .other (by decide) (by rintro v ⟨⟩) _
      · cases h
  case h_1 | h_2 | h_3 | h_4 | h_6 | h_9 =>
      exact Except.ok.inj h ▸ .other (by decide) (by rintro v ⟨⟩) operand
  case h_7 | h_8 | h_10 | h_11 | h_12 =>
      obtain ⟨_, -, rfl⟩ := map_eq_ok_iff.mp h
      exact .other (by decide) (by rintro v ⟨⟩) operand
  case h_16 =>
      rename_i hequal _ _ _ _ _ _ _ hoptions _ _
      obtain ⟨custom, hcustom, rfl⟩ := map_eq_ok_iff.mp h
      refine .other ⟨hoptions, hequal⟩ ?_ operand
      rintro v rfl
      unfold compileCustom at hcustom
      split at hcustom <;> cases hcustom

theorem ne_equal_of_compileNegation {o : Operator} (h : compileNegation operand = .ok o)
    (v : Value) : o ≠ .equal v := by
  rintro rfl
  cases operand with
  | boolean b => cases Except.ok.inj h
  | regex pattern options =>
      obtain ⟨p, -, hp⟩ := map_eq_ok_iff.mp h
      cases hp
  | _ => cases h

omit [Pattern.Engine] in
theorem ne_equal_of_elementOperator {d : Document} {operators : Except Error (List Operator)}
    {clauses : Except Error (List Clause)} {o : Operator}
    (h : elementOperator d operators clauses = .ok o) (v : Value) : o ≠ .equal v := by
  rintro rfl
  rcases elementOperator_cases h with ⟨-, q, -, heq⟩ | ⟨-, inner, -, heq⟩ <;> cases heq

theorem from_of_compileOperator (h : compileOperator settings whole key operand = .ok op) :
    Operator.From whole key operand op := by
  cases operand with
  | document d =>
      unfold compileOperator at h
      split at h
      · obtain ⟨c, -, h⟩ := bind_eq_ok_iff.mp h
        exact Except.ok.inj h ▸ .other (by decide) (by rintro v ⟨⟩) _
      · obtain ⟨o, ho, h⟩ := bind_eq_ok_iff.mp h
        exact Except.ok.inj h ▸ .other (by decide) (ne_equal_of_elementOperator ho) _
      · exact from_of_compilePlainOperator h
  | _ =>
      rw [compileOperator_of_plain rfl] at h
      split at h
      · rename_i hnot
        obtain ⟨o, ho, rfl⟩ := map_eq_ok_iff.mp h
        exact .other (hnot ▸ by decide) (ne_equal_of_compileNegation ho) _
      · split at h
        · cases h
        · exact from_of_compilePlainOperator h

/-- Without a pattern every field becomes an operator. -/
theorem forall₂_of_compileOperators (hplain : whole.contains "$regex" = false)
    (h : compileOperators settings whole fields = .ok ops) :
    List.Forall₂ (fun field op => Operator.From whole field.1 field.2 (some op)) fields ops := by
  induction fields generalizing ops with
  | nil => exact Except.ok.inj h ▸ .nil
  | cons field rest ih =>
      rw [compileOperators] at h
      obtain ⟨op, hop, h⟩ := bind_eq_ok_iff.mp h
      obtain ⟨others, hothers, h⟩ := bind_eq_ok_iff.mp h
      have hfrom := from_of_compileOperator hop
      cases op with
      | none =>
          cases hfrom with
          | options _ hregex _ => cases hplain.symm.trans hregex
      | some o => exact Except.ok.inj h ▸ .cons hfrom (ih hothers)

/-- A pattern becomes an operator that is no equality. -/
theorem exists_of_compileOperators_regex (hregex : ∃ v, ("$regex", v) ∈ fields)
    (h : compileOperators settings whole fields = .ok ops) : ∃ o ∈ ops, ∀ v, o ≠ .equal v := by
  induction fields generalizing ops with
  | nil => obtain ⟨v, ⟨⟩⟩ := hregex
  | cons field rest ih =>
      rw [compileOperators] at h
      obtain ⟨op, hop, h⟩ := bind_eq_ok_iff.mp h
      obtain ⟨others, hothers, h⟩ := bind_eq_ok_iff.mp h
      obtain rfl := Except.ok.inj h
      obtain ⟨v, hv⟩ := hregex
      rcases List.mem_cons.mp hv with rfl | hrest
      · have hfrom : Operator.From whole "$regex" v op := from_of_compileOperator hop
        cases hfrom with
        | options hkey _ _ => exact absurd hkey (by decide)
        | equal hkey _ => exact absurd hkey (by decide)
        | other _ ho _ => exact ⟨_, List.mem_append_left _ (List.mem_singleton_self _), ho⟩
      · obtain ⟨o, ho, hne⟩ := ih ⟨v, hrest⟩ hothers
        exact ⟨o, List.mem_append_right _ ho, hne⟩

/-- A document that comes to one equality consists of it. -/
theorem eq_of_compileOperators_equal {v : Value}
    (h : compileOperators settings whole whole = .ok [.equal v]) : whole = [("$eq", v)] := by
  have hplain : whole.contains "$regex" = false := by
    refine Bool.eq_false_iff.mpr fun hregex => ?_
    obtain ⟨p, hp⟩ := Option.isSome_iff_exists.mp hregex
    obtain ⟨o, ho, hne⟩ :=
      exists_of_compileOperators_regex ⟨p, Document.mem_of_get?_eq_some hp⟩ h
    exact hne v (List.mem_singleton.mp ho)
  cases forall₂_of_compileOperators hplain h with
  | @cons field _ rest _ hfield hrest =>
      cases hrest
      obtain ⟨key, operand⟩ := field
      cases hfield with
      | equal hkey _ => exact congrArg (fun name => [(name, operand)]) hkey
      | other _ hne _ => exact absurd rfl (hne v)

end Operators

/-! ## One entry -/

section Entry

variable {settings : Settings} {key path : String} {v pinned : Value} {c : Constraint}

variable [Pattern.Engine]

/-- What a value comes to is an equality where the value pins something. -/
theorem isEquality_iff_pins (h : compileValue settings v = .ok c) :
    c.isEquality = true ↔ ∃ pinned, (Condition.value v).Pins pinned := by
  cases v with
  | document d =>
      rcases documentConstraint_cases h with ⟨hkey, ops, hops, rfl⟩ | ⟨hplain, rfl⟩
      · constructor
        · intro hequality
          unfold Constraint.isEquality at hequality
          split at hequality
          case h_3 heq =>
              obtain rfl := Constraint.operators.inj heq
              rw [eq_of_compileOperators_equal hops]
              exact ⟨_, .equal _⟩
          all_goals contradiction
        · rintro ⟨pinned, hpins⟩
          cases hpins with
          | literal hliteral => cases hkey.symm.trans hliteral
          | equal _ =>
              rw [Except.ok.inj (h.symm.trans (compileValue_equal settings pinned))]
              rfl
      · exact iff_of_true rfl ⟨_, .literal hplain⟩
  | regex pattern options =>
      obtain ⟨p, -, rfl⟩ := map_eq_ok_iff.mp h
      refine iff_of_false Bool.false_ne_true ?_
      rintro ⟨pinned, hpins⟩
      cases hpins with
      | literal hliteral => exact hliteral
  | string s =>
      have hplain : plainConstraint (.string s) = .ok c := h
      rw [plainConstraint] at hplain
      split at hplain
      · rename_i hs
        obtain rfl := Except.ok.inj hplain
        refine iff_of_false Bool.false_ne_true ?_
        rintro ⟨pinned, hpins⟩
        cases hpins with
        | literal hliteral => exact hliteral hs
      · rename_i hs
        exact Except.ok.inj hplain ▸ iff_of_true rfl ⟨_, .literal hs⟩
  | _ => exact Except.ok.inj h ▸ iff_of_true rfl ⟨_, .literal trivial⟩

/-- What is pinned satisfies the constraint. -/
theorem holds_of_pins (h : compileValue settings v = .ok c)
    (hpins : (Condition.value v).Pins pinned) (hv : v.WellFormed) (hfree : v.NaNFree) :
    c.holds (some pinned) = true := by
  have hpinned : pinned.WellFormed := hpins.wellFormed fun w hw => Condition.value.inj hw ▸ hv
  have hpinnedfree : pinned.NaNFree := by
    cases hpins with
    | literal _ => exact hfree
    | equal _ => exact hfree.part (List.mem_singleton_self _)
  have hcompile : (Condition.value v).compile settings = .ok c := h
  rw [Condition.holds_of_compile hcompile]
  exact Meaning.condition_of_pins hpins hpinned hpinnedfree

/-- Under the key the value is a constraint on a field. -/
def NamesField (key : String) (v : Value) : Prop :=
  keyRole key = .field ∨ keyRole key = .numeric ∧ v.isDocument = false

omit [Pattern.Engine] in
theorem namesField_iff :
    NamesField key v ↔ Document.isOperatorKey key = false ∧
      ¬ (isNumericKey key = true ∧ v.isDocument = true) := by
  unfold NamesField
  cases hoperator : Document.isOperatorKey key with
  | true =>
      have hrole : keyRole key ≠ .field ∧ keyRole key ≠ .numeric := by
        unfold keyRole
        split <;> simp [hoperator]
      simp [hrole]
  | false =>
      rw [keyRole_of_plain hoperator]
      cases isNumericKey key <;> simp

theorem compileClause_of_namesField (h : NamesField key v) :
    compileClause settings key v = (compileValue settings v).map (.field key) := by
  cases v with
  | document d =>
      rcases h with h | ⟨-, ⟨⟩⟩
      rw [compileClause, h]
      unfold fieldClause
      rw [h]
      rfl
  | array items =>
      rcases h with h | ⟨h, -⟩
      all_goals
        rw [compileClause, h]
        unfold fieldClause
        rw [h]
        rfl
  | _ =>
      rcases h with h | ⟨h, -⟩
      all_goals
        unfold compileClause fieldClause
        rw [h]
        rfl

omit [Pattern.Engine] in
/-- A field is only asked for under a name or a number. -/
theorem role_of_fieldClause {k : Except Error Constraint}
    (h : fieldClause key k = .ok (.field path c)) :
    keyRole key = .field ∨ keyRole key = .numeric := by
  unfold fieldClause at h
  split at h
  case h_1 | h_3 => cases h
  case h_2 => cases Except.ok.inj h
  case h_4 hrole => exact Or.inr hrole
  case h_5 hrole => exact Or.inl hrole

theorem namesField_of_compileClause (h : compileClause settings key v = .ok (.field path c)) :
    NamesField key v := by
  cases v with
  | document d =>
      rw [compileClause] at h
      split at h
      · obtain ⟨clauses, -, hgroup⟩ := map_eq_ok_iff.mp h
        cases hgroup
      · rename_i hrole
        exact (role_of_fieldClause h).imp id fun hnumeric => absurd hnumeric hrole
  | array items =>
      rw [compileClause] at h
      split at h
      · rename_i junction _
        split at h
        · cases h
        · obtain ⟨queries, -, hjoined⟩ := map_eq_ok_iff.mp h
          cases junction <;> cases hjoined
      · exact (role_of_fieldClause h).imp id fun hnumeric => ⟨hnumeric, rfl⟩
  | _ =>
      unfold compileClause at h
      exact (role_of_fieldClause h).imp id fun hnumeric => ⟨hnumeric, rfl⟩

theorem compile_singleton {q : Query} (hq : Filter.compile settings [(key, .value v)] = .ok q) :
    ∃ clause, compileClause settings key v = .ok clause ∧ q = [clause] := by
  obtain ⟨clause, hclause, hq⟩ := bind_eq_ok_iff.mp hq
  exact ⟨clause, hclause, (Except.ok.inj hq).symm⟩

end Entry

/-! ## The two agree -/

/-- For a filter of one entry that compiles, the upsert pins a value where the
compiler makes an equality of the entry, and the value satisfies the constraint.
The empty key is the only exception: a document under it is not pinned. -/
theorem Filter.pinned_iff_equality [Pattern.Engine] {settings : Settings} {key : String} {v : Value}
    {q : Query} (hv : v.WellFormed) (hq : Filter.compile settings [(key, .value v)] = .ok q) :
    ((pinnedValue? key v).isSome = true ↔
      (∃ path c, q = [.field path c] ∧ c.isEquality = true) ∧
        ¬ (key = "" ∧ v.isDocument = true)) ∧
      ∀ pinned, pinnedValue? key v = some pinned →
        ∃ c, q = [.field key c] ∧ c.isEquality = true ∧
          (v.NaNFree → c.holds (some pinned) = true) := by
  obtain ⟨clause, hclause, rfl⟩ := compile_singleton hq
  have hpinned : ∀ pinned, pinnedValue? key v = some pinned →
      ∃ c, [clause] = [.field key c] ∧ c.isEquality = true ∧
        (v.NaNFree → c.holds (some pinned) = true) := by
    intro pinned h
    obtain ⟨hplain, hgroup, hpins⟩ := pinnedValue?_eq_some_iff.mp h
    have hnames : NamesField key v := namesField_iff.mpr
      ⟨hplain, fun ⟨hnumeric, hdocument⟩ => hgroup
        ⟨all_isDecimalDigit_iff.mpr (Or.inr hnumeric), hdocument⟩⟩
    rw [compileClause_of_namesField hnames] at hclause
    obtain ⟨c, hc, rfl⟩ := map_eq_ok_iff.mp hclause
    exact ⟨c, rfl, (isEquality_iff_pins hc).mpr ⟨pinned, hpins⟩, holds_of_pins hc hpins hv⟩
  refine ⟨⟨fun h => ?_, ?_⟩, hpinned⟩
  · obtain ⟨pinned, h⟩ := Option.isSome_iff_exists.mp h
    obtain ⟨c, hc, hequality, -⟩ := hpinned pinned h
    refine ⟨⟨key, c, hc, hequality⟩, fun ⟨hempty, hdocument⟩ => ?_⟩
    exact (pinnedValue?_eq_some_iff.mp h).2.1
      ⟨all_isDecimalDigit_iff.mpr (Or.inl hempty), hdocument⟩
  · rintro ⟨⟨path, c, hfield, hequality⟩, hnonempty⟩
    obtain rfl := List.singleton_inj.mp hfield
    have hnames := namesField_of_compileClause hclause
    obtain ⟨hplain, hgroup⟩ := namesField_iff.mp hnames
    rw [compileClause_of_namesField hnames] at hclause
    obtain ⟨c, hc, heq⟩ := map_eq_ok_iff.mp hclause
    cases heq
    obtain ⟨pinned, hpins⟩ := (isEquality_iff_pins hc).mp hequality
    refine Option.isSome_iff_exists.mpr ⟨pinned, pinnedValue?_eq_some_iff.mpr
      ⟨hplain, fun ⟨hdigits, hdocument⟩ => ?_, hpins⟩⟩
    rcases all_isDecimalDigit_iff.mp hdigits with hempty | hnumeric
    · exact hnonempty ⟨hempty, hdocument⟩
    · exact hgroup ⟨hnumeric, hdocument⟩

/-- An array under `$eq` is pinned at a path, and satisfies its constraint. -/
theorem Filter.pinned_iff_equality_array :
    ∃ q, Filter.compile .default [("a.b", .value (.document [("$eq", .array [.int32 1])]))] =
        .ok q ∧
      (pinnedValue? "a.b" (.document [("$eq", .array [.int32 1])])).isSome = true ∧
      ∃ c, q = [.field "a.b" c] ∧ c.holds (some (.array [.int32 1])) = true := by
  have hv : (Value.document [("$eq", .array [.int32 1])]).WellFormed :=
    ⟨by decide, ⟨trivial, trivial⟩, trivial⟩
  have hone : (Value.int32 1).NaNFree := .of_scalar (by rintro d ⟨⟩) rfl
  have hitems : (Value.array [.int32 1]).NaNFree :=
    .intro (by rintro d ⟨⟩) (List.forall_mem_singleton.mpr hone)
  have hfree : (Value.document [("$eq", .array [.int32 1])]).NaNFree :=
    .intro (by rintro d ⟨⟩) (List.forall_mem_singleton.mpr hitems)
  have hq : Filter.compile .default [("a.b", .value (.document [("$eq", .array [.int32 1])]))] =
      .ok [.field "a.b" (.operators [.equal (.array [.int32 1])])] := rfl
  obtain ⟨hiff, hholds⟩ := Filter.pinned_iff_equality hv hq
  obtain ⟨c, hc, hequality, hself⟩ := hholds _ rfl
  exact ⟨_, hq, hiff.mpr ⟨⟨"a.b", c, hc, hequality⟩, by decide⟩, c, hc, hself hfree⟩

/-- A document under the empty key becomes an equality, but it is not pinned. -/
theorem Filter.not_pinned_under_empty :
    let v : Value := .document [("a", .int32 1)]
    ∃ c, Filter.compile .default [("", .value v)] = .ok [.field "" c] ∧ c.isEquality = true ∧
      pinnedValue? "" v = none :=
  ⟨_, rfl, rfl, rfl⟩

end DocStore
