import DocStore.Proofs.Acceptance
import DocStore.Proofs.Reordering

/-!
# Filters do not depend on the order of their keys

Of two filters that say the same in another order either both compile or
neither does, and if they do they hold of the same documents
(`Filter.compile_reordered`). Nothing is said about queries on the way: a
filter compiles if it is well formed and holds of what it is true of, and
neither of these is a matter of order.

Each goes by induction on the reordering. Its cases are the pieces that stay in
their places, where the statement is that of the pieces, and the permutations,
where a conjunction has its terms in another order (`eq_of_perm`). Only an
expression looks beside itself, for its options, and finds them in either order
as long as no name comes twice.
-/

namespace DocStore

/-- A test of a list that goes item by item is the same in any order. -/
theorem eq_of_perm {α : Type} {f : List α → Bool} {p : α → Bool}
    (hcons : ∀ x xs, f (x :: xs) = (p x && f xs)) {xs ys : List α} (h : xs.Perm ys) :
    f xs = f ys := by
  induction h with
  | nil => rfl
  | cons x h ih => rw [hcons, hcons, ih]
  | swap x y l => simp only [hcons, Bool.and_left_comm]
  | trans h h' ih ih' => exact ih.trans ih'

/-! ## Well formed in any order -/

namespace Grammar

variable [Pattern.Engine] {settings : Settings}

/-- One operator of the document `whole`. -/
def operator (settings : Settings) (whole : Document) (key : String) (operand : Value) : Bool :=
  if key = "$not" then isNegatable operand && constraint settings operand
  else if key = "$elemMatch" then element settings operand
  else plainOperator settings whole key operand

theorem operators_perm (whole : Document) {d e : Document} (h : d.Perm e) :
    operators settings whole d = operators settings whole e :=
  eq_of_perm (p := fun field => operator settings whole field.1 field.2) (fun _ _ => rfl) h

theorem entries_perm {d e : Document} (h : d.Perm e) : entries settings d = entries settings e :=
  eq_of_perm (fun _ _ => rfl) h

theorem members_perm {xs ys : List Value} (h : xs.Perm ys) :
    members settings xs = members settings ys := by
  refine eq_of_perm (p := fun v => members settings [v]) (fun v rest => ?_) h
  cases v <;> simp [members]

theorem conditions_perm {f g : Filter} (h : f.Perm g) :
    conditions settings f = conditions settings g :=
  eq_of_perm (fun _ _ => rfl) h

theorem filters_perm {fs gs : List Filter} (h : fs.Perm gs) :
    filters settings fs = filters settings gs :=
  eq_of_perm (fun _ _ => rfl) h

/-- Of the document around them operators see the options, and whether there is
an expression. -/
theorem operators_whole {whole other : Document}
    (hoptions : whole.get? "$options" = other.get? "$options")
    (hregex : whole.contains "$regex" = other.contains "$regex") (d : Document) :
    operators settings whole d = operators settings other d := by
  have hplain : ∀ key operand, plainOperator settings whole key operand =
      plainOperator settings other key operand := by
    intro key operand
    simp only [plainOperator, isExpressionBeside, Meaning.optionsBeside, hoptions, hregex]
  induction d with
  | nil => rfl
  | cons field rest ih => rw [operators, operators, hplain, ih]

end Grammar

namespace Reordering

variable {settings : Settings}

/-- The operands that a reordering leaves alone. -/
theorem OfOperand.eq_of_plain {key : String} {v w : Value} (h : OfOperand key v w)
    (hkey : key ∉ ["$in", "$nin", "$all", "$not", "$elemMatch"]) : v = w := by
  cases h with
  | same => rfl
  | choices hchoices h => exact absurd (List.mem_append_left ["$not", "$elemMatch"] hchoices) hkey
  | negation | elementFilter | elementOperators => simp at hkey

theorem OfOperators.get? :
    ∀ {d e : Document}, OfOperators d e → d.keys.Nodup → ∀ {key : String},
      key ∉ ["$in", "$nin", "$all", "$not", "$elemMatch"] → d.get? key = e.get? key
  | _, _, .nil, _, _, _ => rfl
  | _, _, .cons operand rest, hnodup, key, hkey => by
      rw [Document.get?_cons, Document.get?_cons, rest.get? hnodup.of_cons hkey]
      split
      · rename_i heq
        rw [operand.eq_of_plain (heq ▸ hkey)]
      · rfl
  | _, _, .order h _ he, hnodup, key, hkey => by
      rw [h.get? hnodup hkey, Document.get?_perm (h.perm_keys.nodup_iff.mp hnodup) he]

/-- What an operator sees of the document around it. -/
theorem OfOperators.beside {d e : Document} (h : OfOperators d e) (hd : d.keys.Nodup) :
    d.get? "$options" = e.get? "$options" ∧ d.contains "$regex" = e.contains "$regex" := by
  have hoptions : d.get? "$options" = e.get? "$options" := h.get? hd (by decide)
  have hregex : d.get? "$regex" = e.get? "$regex" := h.get? hd (by decide)
  exact ⟨hoptions, congrArg Option.isSome hregex⟩

theorem OfConstraint.isNegatable_eq {v w : Value} (h : OfConstraint v w) :
    Grammar.isNegatable v = Grammar.isNegatable w :=
  h.eq_of_kind (fun _ _ => rfl) fun _ _ => rfl

variable [Pattern.Engine]

theorem OfLiteral.grammar {v w : Value} (h : OfLiteral v w)
    (hplain : ∀ d, v = .document d → Document.hasOperatorKey d = false) :
    Grammar.constraint settings v = Grammar.constraint settings w := by
  cases h with
  | same => rfl
  | array => rfl
  | document h =>
      have hd := hplain _ rfl
      rw [Grammar.constraint, Grammar.constraint, ← Document.hasOperatorKey_perm h.perm_keys, hd]
      rfl

theorem OfOperand.grammar_choices {key : String} (hkey : key ∈ ["$in", "$nin", "$all"])
    {xs ys : List Value} (h : xs.Perm ys) (whole : Document) :
    Grammar.operator settings whole key (.array xs) =
      Grammar.operator settings whole key (.array ys) := by
  simp only [List.mem_cons, List.not_mem_nil, or_false] at hkey
  rcases hkey with rfl | rfl | rfl
  · exact h.all_eq
  · exact h.all_eq
  · rfl

/-- A document of operators, given that its operators are well formed alike. -/
theorem OfOperators.grammar_whole {d e : Document} (h : OfOperators d e) (hd : d.keys.Nodup)
    (hsame : Grammar.operators settings d d = Grammar.operators settings d e) :
    ((Document.keys d).all Document.isOperatorKey && Grammar.operators settings d d) =
      ((Document.keys e).all Document.isOperatorKey && Grammar.operators settings e e) := by
  obtain ⟨hoptions, hregex⟩ := h.beside hd
  rw [hsame, Grammar.operators_whole hoptions hregex, h.perm_keys.all_eq]

mutual

theorem OfConstraint.grammar :
    ∀ {v w : Value}, OfConstraint v w → v.WellFormed →
      Grammar.constraint settings v = Grammar.constraint settings w
  | _, _, .literal hplain h, _ => h.grammar hplain
  | _, _, .operators hd h, hv => by
      rw [Grammar.constraint, Grammar.constraint, ← Document.hasOperatorKey_perm h.perm_keys, hd,
        h.grammar_whole hv.1 (h.grammar hv.2 _)]

theorem OfOperators.grammar :
    ∀ {d e : Document}, OfOperators d e → fieldsWellFormed d → ∀ whole : Document,
      Grammar.operators settings whole d = Grammar.operators settings whole e
  | _, _, .nil, _, _ => rfl
  | _, _, .cons operand rest, hd, whole =>
      congrArg₂ and (operand.grammar hd.1 whole) (rest.grammar hd.2 whole)
  | _, _, .order h _ he, hd, whole => (h.grammar hd whole).trans (Grammar.operators_perm whole he)

theorem OfOperand.grammar :
    ∀ {key : String} {v w : Value}, OfOperand key v w → v.WellFormed → ∀ whole : Document,
      Grammar.operator settings whole key v = Grammar.operator settings whole key w
  | _, _, _, .same .., _, _ => rfl
  | _, _, _, .choices hkey h, _, whole => OfOperand.grammar_choices hkey h whole
  | _, _, _, .negation h, hv, _ => congrArg₂ and h.isNegatable_eq (h.grammar hv)
  | _, .document d, .document e, .elementFilter hd h, hv, whole => by
      have he : Meaning.isSubfilter e = true := Meaning.isSubfilter_perm h.perm_keys ▸ hd
      change Grammar.element settings (.document d) = Grammar.element settings (.document e)
      rw [Grammar.element, Grammar.element, if_pos hd, if_pos he, h.grammar hv.2]
  | _, .document d, .document e, .elementOperators hd h, hv, whole => by
      have he : Meaning.isSubfilter e = false := Meaning.isSubfilter_perm h.perm_keys ▸ hd
      change Grammar.element settings (.document d) = Grammar.element settings (.document e)
      rw [Grammar.element, Grammar.element, if_neg (Bool.eq_false_iff.mp hd),
        if_neg (Bool.eq_false_iff.mp he), h.grammar_whole hv.1 (h.grammar hv.2 _)]

theorem OfEntries.grammar :
    ∀ {d e : Document}, OfEntries d e → fieldsWellFormed d →
      Grammar.entries settings d = Grammar.entries settings e
  | _, _, .nil, _ => rfl
  | _, _, .cons entry rest, hd => congrArg₂ and (entry.grammar hd.1) (rest.grammar hd.2)
  | _, _, .order h he, hd => (h.grammar hd).trans (Grammar.entries_perm he)

theorem OfEntry.grammar :
    ∀ {key : String} {v w : Value}, OfEntry key v w → v.WellFormed →
      Grammar.entry key (Grammar.list settings v) (Grammar.group? settings v)
          (Grammar.constraint settings v) =
        Grammar.entry key (Grammar.list settings w) (Grammar.group? settings w)
          (Grammar.constraint settings w)
  | _, _, _, .same .., _ => rfl
  | _, _, _, .field hkey h, hv => by
      rw [Grammar.entry_eq, Grammar.entry_eq, hkey]
      exact h.grammar hv
  | _, _, _, .numbered hkey hsingle h, hv => by
      -- What is no document stays none, so the number makes no group of it.
      have hw := h.isDocument_eq ▸ hsingle
      rw [Grammar.entry_eq, Grammar.entry_eq, hkey, Grammar.group?_eq_none hsingle,
        Grammar.group?_eq_none hw]
      exact h.grammar hv
  | _, _, _, .group hkey h, hv => by
      rw [Grammar.entry_eq, Grammar.entry_eq, hkey, Grammar.group?, Grammar.group?,
        h.grammar hv.2]
      rfl
  | _, .array xs, .array ys, .list hkey h, hv => by
      rw [Grammar.entry_eq, Grammar.entry_eq, hkey]
      exact congrArg₂ and (congrArg not h.isEmpty_eq) (h.grammar hv)

theorem OfMembers.grammar :
    ∀ {xs ys : List Value}, OfMembers xs ys → allWellFormed xs →
      Grammar.members settings xs = Grammar.members settings ys
  | _, _, .nil, _ => rfl
  | _, _, .cons member rest, hv => congrArg₂ and (member.grammar hv.1.2) (rest.grammar hv.2)
  | _, _, .stray v rest, hv => by
      cases v with
      | document d => exact congrArg (Grammar.entries settings d && ·) (rest.grammar hv.2)
      | _ => rfl
  | _, _, .order h hy, hv => (h.grammar hv).trans (Grammar.members_perm hy)

end

end Reordering

/-! ## True in any order -/

namespace Meaning

variable [Pattern.Engine] {settings : Settings}

/-- An operator other than `$exists`. -/
def operator (settings : Settings) (beside : String) (v : Option Value) (key : String)
    (operand : Value) : Bool :=
  if key = "$not" then negation (constraint settings v operand) operand
  else if key = "$elemMatch" then element settings v operand
  else plainOperator settings beside key operand v

theorem operators_cons {key : String} (h : key ≠ "$exists") (beside : String) (v : Option Value)
    (operand : Value) (rest : Document) :
    operators settings beside v ((key, operand) :: rest) =
      (operator settings beside v key operand && operators settings beside v rest) := by
  rw [operators, if_neg h]
  rfl

/-- Without an `$exists` among them, operators can be asked in any order. -/
theorem operators_perm (beside : String) (v : Option Value) {d e : Document}
    (hexists : "$exists" ∉ d.keys) (h : d.Perm e) :
    operators settings beside v d = operators settings beside v e := by
  have hall : ∀ d : Document, "$exists" ∉ d.keys →
      operators settings beside v d =
        d.all fun field => operator settings beside v field.1 field.2 := by
    intro d hd
    induction d with
    | nil => rfl
    | cons field rest ih =>
        obtain ⟨hkey, hrest⟩ := not_or.mp (mt List.mem_cons.mpr hd)
        rw [operators_cons (Ne.symm hkey), List.all_cons, ih hrest]
  have hexists' : "$exists" ∉ e.keys := fun hmem => hexists ((h.map (·.1)).mem_iff.mpr hmem)
  rw [hall d hexists, hall e hexists', h.all_eq]

theorem entries_perm (item : Document) {d e : Document} (h : d.Perm e) :
    entries settings item d = entries settings item e :=
  eq_of_perm (fun _ _ => rfl) h

theorem conditions_perm (item : Document) {f g : Filter} (h : f.Perm g) :
    conditions settings item f = conditions settings item g :=
  eq_of_perm (fun _ _ => rfl) h

theorem members_perm (item : Document) {xs ys : List Value} (h : xs.Perm ys) :
    (members settings item xs).Perm (members settings item ys) := by
  have hmembers : ∀ xs : List Value, members settings item xs =
      xs.flatMap fun v => members settings item [v] := by
    intro xs
    induction xs with
    | nil => rfl
    | cons v rest ih => cases v <;> simp [members, ih]
  rw [hmembers, hmembers]
  exact h.flatMap_right _

theorem filters_perm (item : Document) {fs gs : List Filter} (h : fs.Perm gs) :
    (filters settings item fs).Perm (filters settings item gs) := by
  have hfilters : ∀ fs : List Filter, filters settings item fs =
      fs.map (conditions settings item) := by
    intro fs
    induction fs with
    | nil => rfl
    | cons f rest ih => rw [filters, ih, List.map_cons]
  rw [hfilters, hfilters]
  exact h.map _

omit [Pattern.Engine] in
/-- All, any or none of some filters, in any order. -/
theorem entry_perm {key : String} {isGroup truth : Bool} {xs ys : List Bool} (h : xs.Perm ys) :
    entry key isGroup xs truth = entry key isGroup ys truth := by
  rw [entry_eq, entry_eq, h.all_eq, h.any_eq]

omit [Pattern.Engine] in
/-- Whether the items are the whole set is a question about a single operand. -/
theorem containsEach_perm {xs ys : List Value} (h : xs.Perm ys) (v : Value) :
    containsEach (.array xs) v = containsEach (.array ys) v := by
  have hother : v.isArray = false → ∀ zs, containsEach (.array zs) v = false := by
    intro hv zs
    unfold containsEach
    split <;> first | rfl | cases hv
  have hmany : ∀ items x y rest, containsEach (.array (x :: y :: rest)) (.array items) =
      (x :: y :: rest).all fun operand => items.any fun item => item.strictEq operand := by
    intro items x y rest
    cases x <;> rfl
  rcases xs with _ | ⟨x, _ | ⟨y, rest⟩⟩
  · rw [h.nil_eq]
  · rw [List.singleton_perm.mp h]
  · rcases ys with _ | ⟨z, _ | ⟨w, more⟩⟩
    · cases h.length_eq
    · cases h.length_eq
    · cases v with
      | array items => rw [hmany, hmany, h.all_eq]
      | _ => rw [hother rfl, hother rfl]

omit [Pattern.Engine] in
/-- An array or a document is compared as a whole. -/
theorem literal_eq_looseEq {expected : Value}
    (h : (expected.isArray || expected.isDocument) = true) (v : Value) :
    literal expected v = v.looseEq expected := by
  unfold literal
  rw [h]
  cases expected <;> cases h <;> cases v <;> simp

theorem isIn_perm {xs ys : List Value} (h : xs.Perm ys) (v : Value) :
    isIn settings (.array xs) v = isIn settings (.array ys) v := by
  simp only [isIn, h.any_eq]

end Meaning

namespace Reordering

variable [Pattern.Engine] {settings : Settings}

theorem OfLiteral.meaning {v w : Value} (h : OfLiteral v w)
    (hplain : ∀ d, v = .document d → Document.hasOperatorKey d = false) (hv : v.WellFormed)
    (x : Option Value) :
    Meaning.constraint settings x v = Meaning.constraint settings x w := by
  have hloose := h.looseEq hv (x.getD .null)
  cases h with
  | same => rfl
  | @array xs ys h =>
      change Meaning.literal (.array xs) _ = Meaning.literal (.array ys) _
      rw [Meaning.literal_eq_looseEq rfl, Meaning.literal_eq_looseEq rfl, hloose]
  | document h =>
      have hd := hplain _ rfl
      have he := Document.hasOperatorKey_perm h.perm_keys ▸ hd
      rw [Meaning.constraint, Meaning.constraint, if_neg (Bool.eq_false_iff.mp hd),
        if_neg (Bool.eq_false_iff.mp he), Meaning.literal_eq_looseEq rfl,
        Meaning.literal_eq_looseEq rfl, hloose]

omit [Pattern.Engine] in
theorem OfConstraint.negation_eq {v w : Value} (h : OfConstraint v w) (truth : Bool) :
    Meaning.negation truth v = Meaning.negation truth w :=
  h.eq_of_kind (fun _ _ => rfl) fun _ _ => rfl

theorem OfOperand.meaning_choices {key : String} (hkey : key ∈ ["$in", "$nin", "$all"])
    {xs ys : List Value} (h : xs.Perm ys) (beside : String) (x : Option Value) :
    Meaning.operator settings beside x key (.array xs) =
      Meaning.operator settings beside x key (.array ys) := by
  simp only [List.mem_cons, List.not_mem_nil, or_false] at hkey
  rcases hkey with rfl | rfl | rfl
  · exact Meaning.isIn_perm h _
  · exact congrArg not (Meaning.isIn_perm h _)
  · exact Meaning.containsEach_perm h _

omit [Pattern.Engine] in
/-- The options of an expression are found wherever they stand. -/
theorem OfOperators.optionsBeside_eq {d e : Document} (h : OfOperators d e)
    (hd : d.keys.Nodup) : Meaning.optionsBeside d = Meaning.optionsBeside e := by
  rw [Meaning.optionsBeside, Meaning.optionsBeside, (h.beside hd).1]

theorem elementFilter_eq {d e : Document} (hd : Meaning.isSubfilter d = true)
    (hkeys : d.keys.Perm e.keys)
    (h : ∀ item, Meaning.entries settings item d = Meaning.entries settings item e)
    (x : Option Value) :
    Meaning.element settings x (.document d) = Meaning.element settings x (.document e) := by
  have he := Meaning.isSubfilter_perm hkeys ▸ hd
  simp only [Meaning.element, hd, he, if_true, h]

theorem elementOperators_eq {d e : Document} (hd : Meaning.isSubfilter d = false)
    (hkeys : d.keys.Perm e.keys)
    (h : ∀ x, Meaning.operators settings (Meaning.optionsBeside d) x d =
      Meaning.operators settings (Meaning.optionsBeside e) x e) (x : Option Value) :
    Meaning.element settings x (.document d) = Meaning.element settings x (.document e) := by
  have he := Meaning.isSubfilter_perm hkeys ▸ hd
  simp only [Meaning.element, hd, he, Bool.false_eq_true, if_false, h]

mutual

theorem OfConstraint.meaning :
    ∀ {v w : Value}, OfConstraint v w → v.WellFormed → ∀ x : Option Value,
      Meaning.constraint settings x v = Meaning.constraint settings x w
  | _, _, .literal hplain h, hv, x => h.meaning hplain hv x
  | _, _, .operators hd h, hv, x => by
      have he := Document.hasOperatorKey_perm h.perm_keys ▸ hd
      rw [Meaning.constraint, Meaning.constraint, if_pos hd, if_pos he,
        h.meaning hv.2, h.optionsBeside_eq hv.1]

theorem OfOperators.meaning :
    ∀ {d e : Document}, OfOperators d e → fieldsWellFormed d →
      ∀ (beside : String) (x : Option Value),
        Meaning.operators settings beside x d = Meaning.operators settings beside x e
  | _, _, .nil, _, _, _ => rfl
  | (key, _) :: _, _, .cons operand rest, hd, beside, x => by
      by_cases hkey : key = "$exists"
      · -- It decides by itself, and no reordering touches its operand.
        subst hkey
        rw [operand.eq_of_plain (by decide), Meaning.operators, Meaning.operators, if_pos rfl,
          if_pos rfl]
      · rw [Meaning.operators_cons hkey, Meaning.operators_cons hkey,
          operand.meaning hd.1 beside x, rest.meaning hd.2 beside x]
  | _, _, .order h hexists he, hd, beside, x =>
      (h.meaning hd beside x).trans (Meaning.operators_perm beside x hexists he)

theorem OfOperand.meaning :
    ∀ {key : String} {v w : Value}, OfOperand key v w → v.WellFormed →
      ∀ (beside : String) (x : Option Value),
        Meaning.operator settings beside x key v = Meaning.operator settings beside x key w
  | _, _, _, .same .., _, _, _ => rfl
  | _, _, _, .choices hkey h, _, beside, x => OfOperand.meaning_choices hkey h beside x
  | _, v, w, .negation h, hv, _, x => by
      change Meaning.negation _ v = Meaning.negation _ w
      rw [h.meaning hv x, h.negation_eq]
  | _, _, _, .elementFilter hd h, hv, _, x => elementFilter_eq hd h.perm_keys (h.meaning hv.2) x
  | _, _, _, .elementOperators hd h, hv, _, x => by
      refine elementOperators_eq hd h.perm_keys (fun item => ?_) x
      rw [h.meaning hv.2, h.optionsBeside_eq hv.1]

theorem OfEntries.meaning :
    ∀ {d e : Document}, OfEntries d e → fieldsWellFormed d → ∀ item : Document,
      Meaning.entries settings item d = Meaning.entries settings item e
  | _, _, .nil, _, _ => rfl
  | _, _, .cons entry rest, hd, item =>
      congrArg₂ and (entry.meaning hd.1 item) (rest.meaning hd.2 item)
  | _, _, .order h he, hd, item => (h.meaning hd item).trans (Meaning.entries_perm item he)

theorem OfEntry.meaning :
    ∀ {key : String} {v w : Value}, OfEntry key v w → v.WellFormed → ∀ item : Document,
      Meaning.entry key v.isDocument (Meaning.subfilters settings item v)
          (Meaning.constraint settings (item.resolve? key) v) =
        Meaning.entry key w.isDocument (Meaning.subfilters settings item w)
          (Meaning.constraint settings (item.resolve? key) w)
  | _, _, _, .same .., _, _ => rfl
  | _, _, _, .field hkey h, hv, _ => by
      rw [Meaning.entry_eq, Meaning.entry_eq, hkey]
      exact h.meaning hv _
  | _, _, _, .numbered hkey hsingle h, hv, _ => by
      rw [Meaning.entry_eq, Meaning.entry_eq, hkey, ← h.isDocument_eq, hsingle]
      exact h.meaning hv _
  | _, _, _, .group hkey h, hv, item => by
      rw [Meaning.entry_eq, Meaning.entry_eq, hkey]
      exact congrArg (· && true) (h.meaning hv.2 item)
  | _, _, _, .list hkey h, hv, item => by
      rw [Meaning.entry_eq, Meaning.entry_eq, hkey]
      have hmembers := h.meaning hv item
      cases ‹Junction› with
      | all => exact hmembers.all_eq
      | any => exact hmembers.any_eq
      | none => exact congrArg not hmembers.any_eq

theorem OfMembers.meaning :
    ∀ {xs ys : List Value}, OfMembers xs ys → allWellFormed xs → ∀ item : Document,
      (Meaning.members settings item xs).Perm (Meaning.members settings item ys)
  | _, _, .nil, _, _ => .refl _
  | _, _, .cons member rest, hv, item => by
      rw [Meaning.members, Meaning.members, member.meaning hv.1.2 item]
      exact (rest.meaning hv.2 item).cons _
  | _, _, .stray v rest, hv, item => by
      cases v with
      | document d => exact (rest.meaning hv.2 item).cons _
      | _ => exact rest.meaning hv.2 item
  | _, _, .order h hy, hv, item => (h.meaning hv item).trans (Meaning.members_perm item hy)

end

/-! ## Filters -/

mutual

theorem OfConditions.grammar :
    ∀ {f g : Filter}, OfConditions f g → conditionsValuesWellFormed f →
      Grammar.conditions settings f = Grammar.conditions settings g
  | _, _, .nil, _ => rfl
  | _, _, .cons entry rest, hf => congrArg₂ and (entry.grammar hf.1) (rest.grammar hf.2)
  | _, _, .order h hg, hf => (h.grammar hf).trans (Grammar.conditions_perm hg)

theorem OfCondition.grammar :
    ∀ {key : String} {c e : Condition}, OfCondition key c e → c.ValuesWellFormed →
      Grammar.entry key (Grammar.conditionList settings c) (Grammar.conditionGroup? settings c)
          (Grammar.condition settings c) =
        Grammar.entry key (Grammar.conditionList settings e) (Grammar.conditionGroup? settings e)
          (Grammar.condition settings e)
  | _, _, _, .same .., _ => rfl
  | _, _, _, .value h, hv => h.grammar hv
  | _, _, _, .filters h, hfs => by
      simp only [Grammar.conditionList, Grammar.conditionGroup?, h.isEmpty_eq, h.grammar hfs]
      rfl

theorem OfFilters.grammar :
    ∀ {fs gs : List Filter}, OfFilters fs gs → membersValuesWellFormed fs →
      Grammar.filters settings fs = Grammar.filters settings gs
  | _, _, .nil, _ => rfl
  | _, _, .cons member rest, hfs => congrArg₂ and (member.grammar hfs.1) (rest.grammar hfs.2)
  | _, _, .order h hg, hfs => (h.grammar hfs).trans (Grammar.filters_perm hg)

end

mutual

theorem OfConditions.meaning :
    ∀ {f g : Filter}, OfConditions f g → conditionsValuesWellFormed f → ∀ item : Document,
      Meaning.conditions settings item f = Meaning.conditions settings item g
  | _, _, .nil, _, _ => rfl
  | _, _, .cons entry rest, hf, item =>
      congrArg₂ and (entry.meaning hf.1 item) (rest.meaning hf.2 item)
  | _, _, .order h hg, hf, item => (h.meaning hf item).trans (Meaning.conditions_perm item hg)

theorem OfCondition.meaning :
    ∀ {key : String} {c e : Condition}, OfCondition key c e → c.ValuesWellFormed →
      ∀ item : Document,
        Meaning.entry key (Meaning.isGroup c) (Meaning.groups settings item c)
            (Meaning.condition settings (item.resolve? key) c) =
          Meaning.entry key (Meaning.isGroup e) (Meaning.groups settings item e)
            (Meaning.condition settings (item.resolve? key) e)
  | _, _, _, .same .., _, _ => rfl
  | _, _, _, .value h, hv, item => h.meaning hv item
  | _, _, _, .filters h, hfs, item => Meaning.entry_perm (h.meaning hfs item)

theorem OfFilters.meaning :
    ∀ {fs gs : List Filter}, OfFilters fs gs → membersValuesWellFormed fs → ∀ item : Document,
      (Meaning.filters settings item fs).Perm (Meaning.filters settings item gs)
  | _, _, .nil, _, _ => .refl _
  | _, _, .cons member rest, hfs, item => by
      rw [Meaning.filters, Meaning.filters, member.meaning hfs.1 item]
      exact (rest.meaning hfs.2 item).cons _
  | _, _, .order h hg, hfs, item => (h.meaning hfs item).trans (Meaning.filters_perm item hg)

end

end Reordering

/-- Two filters that say the same in another order compile alike, and what they
compile to holds of the same documents. -/
theorem Filter.compile_reordered [Pattern.Engine] (settings : Settings) {f g : Filter}
    (hf : f.ValuesWellFormed) (h : f.Reordered g) :
    ((∃ q, f.compile settings = .ok q) ↔ ∃ r, g.compile settings = .ok r) ∧
      ∀ q r, f.compile settings = .ok q → g.compile settings = .ok r →
        ∀ d, q.holds d = r.holds d := by
  constructor
  · have hgrammar : Grammar.conditions settings f = Grammar.conditions settings g := h.grammar hf
    rw [← isOk_iff, ← isOk_iff, Filter.compile, Filter.compile, isOk_compileConditions,
      isOk_compileConditions, hgrammar]
  · intro q r hq hr d
    calc q.holds d
        = Meaning.conditions settings d f := holds_of_compileConditions f hq d
      _ = Meaning.conditions settings d g := h.meaning hf d
      _ = r.holds d := (holds_of_compileConditions g hr d).symm

/-- An expression after its options, a literal with its keys exchanged in the
second of two filters, and the entries the other way round. -/
theorem Filter.compile_reordered_options :
    let f : Filter := [
      ("name", .value (.document [("$regex", .string "^r"), ("$options", .string "i")])),
      ("$or", .filters [
        [("at", .value (.document [("x", .int32 1), ("y", .int32 2)]))],
        [("n", .value (.document [("$not", .document [("$in", .array [.int32 3, .null])])]))]])]
    let g : Filter := [
      ("$or", .filters [
        [("n", .value (.document [("$not", .document [("$in", .array [.null, .int32 3])])]))],
        [("at", .value (.document [("y", .int32 2), ("x", .int32 1)]))]]),
      ("name", .value (.document [("$options", .string "i"), ("$regex", .string "^r")]))]
    ∃ q r, f.compile .default = .ok q ∧ g.compile .default = .ok r ∧
      ∀ d, q.holds d = r.holds d := by
  intro f g
  have hf : f.ValuesWellFormed := by
    simp [f, Filter.ValuesWellFormed, conditionsValuesWellFormed, membersValuesWellFormed,
      Condition.ValuesWellFormed, Value.WellFormed, fieldsWellFormed, allWellFormed]
  have h : f.Reordered g := by
    refine .order (.cons ?name (.cons (.filters (.order ?members (.swap ..))) .nil)) (.swap ..)
    case name =>
        refine .value (.field rfl (.operators rfl (.order ?_ (by decide) (.swap ..))))
        exact .cons (.same ..) (.cons (.same ..) .nil)
    case members =>
        refine .cons (.cons (.value (.field rfl ?place)) .nil)
          (.cons (.cons (.value (.field rfl ?list)) .nil) .nil)
        case place =>
            refine .literal (by rintro d ⟨⟩; rfl) (.document (.order ?_ (.swap ..)))
            exact .cons (.same _) (.cons (.same _) .nil)
        case list =>
            refine .operators rfl (.cons (.negation (.operators rfl (.cons ?_ .nil))) .nil)
            exact .choices (by decide) (.swap ..)
  exact ⟨_, _, rfl, rfl, (Filter.compile_reordered .default hf h).2 _ _ rfl rfl⟩

/-- An `$exists` has the last word, and so its place matters. -/
example :
    Filter.meaning .default
        [("n", .value (.document [("$exists", .boolean true), ("$gt", .int32 3)]))]
        [("n", .int32 1)] = true ∧
      Filter.meaning .default
        [("n", .value (.document [("$gt", .int32 3), ("$exists", .boolean true)]))]
        [("n", .int32 1)] = false :=
  ⟨rfl, rfl⟩

end DocStore
