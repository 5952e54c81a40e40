import DocStore.Proofs.Operands

/-!
# Compiling a filter keeps its meaning

A query that comes out of the compiler holds of a document exactly if the
filter is true of it (`Filter.holds_eq_meaning`). The proof follows the
compiler: for each of its recursive functions there is one statement about the
part that this function compiles (`holds_of_compileOperators` and those that
stand with it). A step of the recursion is a lemma of its own that takes the
statements about the smaller parts as hypotheses.
-/

namespace DocStore

/-! ## Keys -/

/-- The keys of a filter that are no field names, and all the others. -/
theorem keyRole_cases (key : String) :
    (key = "$and" ∧ keyRole key = .logical .all) ∨ (key = "$or" ∧ keyRole key = .logical .any) ∨
      (key = "$nor" ∧ keyRole key = .logical .none) ∨
      (key = "$isolated" ∧ keyRole key = .isolated) ∨
      key ∉ ["$and", "$or", "$nor", "$isolated"] ∧
        (keyRole key = .unknownOperator ∨
          isNumericKey key = true ∧ keyRole key = .numeric ∨
          isNumericKey key = false ∧ keyRole key = .field) := by
  unfold keyRole
  split
  case h_1 => exact Or.inl ⟨rfl, rfl⟩
  case h_2 => exact Or.inr (Or.inl ⟨rfl, rfl⟩)
  case h_3 => exact Or.inr (Or.inr (Or.inl ⟨rfl, rfl⟩))
  case h_4 => exact Or.inr (Or.inr (Or.inr (Or.inl ⟨rfl, rfl⟩)))
  case h_5 hand hor hnor hisolated =>
      refine Or.inr (Or.inr (Or.inr (Or.inr ⟨?_, ?_⟩)))
      · simpa using ⟨hand, hor, hnor, hisolated⟩
      · split
        · exact Or.inl rfl
        · split
          · rename_i hnumeric
            exact Or.inr (Or.inl ⟨hnumeric, rfl⟩)
          · rename_i hnumeric
            exact Or.inr (Or.inr ⟨(Bool.not_eq_true _).mp hnumeric, rfl⟩)

/-- A key without a role of its own. -/
theorem Meaning.entry_of_not_mem {key : String} (hkey : key ∉ ["$and", "$or", "$nor", "$isolated"])
    (isGroup : Bool) (subfilters : List Bool) (constraint : Bool) :
    entry key isGroup subfilters constraint =
      if isNumericKey key && isGroup then subfilters.all id else constraint := by
  simp only [List.mem_cons, List.not_mem_nil, or_false, not_or] at hkey
  unfold entry
  split
  case h_1 => exact absurd rfl hkey.1
  case h_2 => exact absurd rfl hkey.2.1
  case h_3 => exact absurd rfl hkey.2.2.1
  case h_4 => exact absurd rfl hkey.2.2.2
  case h_5 => rfl

/-- A dollar sign is no digit. -/
theorem isNumericKey_of_isOperatorKey {key : String} (h : Document.isOperatorKey key = true) :
    isNumericKey key = false := by
  unfold Document.isOperatorKey at h
  unfold isNumericKey
  cases hkey : key.toList with
  | nil => rfl
  | cons first rest =>
      rw [hkey] at h
      obtain rfl : first = '$' := by simpa using h
      rfl

/-- A key without a name of its own is told by its characters. -/
theorem keyRole_of_not_mem {key : String} (hkey : key ∉ ["$and", "$or", "$nor", "$isolated"]) :
    keyRole key =
      if Document.isOperatorKey key then .unknownOperator
      else if isNumericKey key then .numeric else .field := by
  simp only [List.mem_cons, List.not_mem_nil, or_false, not_or] at hkey
  unfold keyRole
  split
  case h_1 => exact absurd rfl hkey.1
  case h_2 => exact absurd rfl hkey.2.1
  case h_3 => exact absurd rfl hkey.2.2.1
  case h_4 => exact absurd rfl hkey.2.2.2
  case h_5 => rfl

/-- An entry is read by the role of its key. -/
theorem Meaning.entry_eq (key : String) (isGroup : Bool) (subfilters : List Bool)
    (constraint : Bool) :
    entry key isGroup subfilters constraint =
      match keyRole key with
      | .logical .all => subfilters.all id
      | .logical .any => subfilters.any id
      | .logical .none => !subfilters.any id
      | .isolated => true
      | .numeric => if isGroup then subfilters.all id else constraint
      | .unknownOperator => constraint
      | .field => constraint := by
  unfold entry
  split
  case h_5 hand hor hnor hisolated =>
      rw [keyRole_of_not_mem (by simpa using ⟨hand, hor, hnor, hisolated⟩)]
      cases hoperator : Document.isOperatorKey key with
      | true =>
          rw [isNumericKey_of_isOperatorKey hoperator]
          rfl
      | false => cases isNumericKey key <;> rfl
  all_goals rfl

/-! ## Documents -/

theorem hasOperatorKey_of_operatorForm {d : Document} {b : Bool} (h : d.operatorForm = .ok b) :
    d.hasOperatorKey = b := by
  unfold Document.operatorForm at h
  split at h
  · rename_i hoperators
    split at h
    · cases h
    · exact hoperators.trans (Except.ok.inj h)
  · rename_i hplain
    exact ((Bool.not_eq_true _).mp hplain).trans (Except.ok.inj h)

theorem documentConstraint_cases {d : Document} {operators : Except Error (List Operator)}
    {c : Constraint} (h : documentConstraint d operators = .ok c) :
    (d.hasOperatorKey = true ∧ ∃ ops, operators = .ok ops ∧ c = .operators ops) ∨
      (d.hasOperatorKey = false ∧ c = .literal (.document d)) := by
  obtain ⟨form, hform, h⟩ := bind_eq_ok_iff.mp h
  have hkey := hasOperatorKey_of_operatorForm hform
  cases form with
  | true =>
      obtain ⟨ops, hops, h⟩ := bind_eq_ok_iff.mp h
      exact Or.inl ⟨hkey, ops, hops, (Except.ok.inj h).symm⟩
  | false => exact Or.inr ⟨hkey, (Except.ok.inj h).symm⟩

theorem isQueryKey_eq (key : String) :
    isQueryKey key = ["$and", "$or", "$nor", "$isolated"].contains key := by
  unfold isQueryKey
  rcases keyRole_cases key with ⟨rfl, hrole⟩ | ⟨rfl, hrole⟩ | ⟨rfl, hrole⟩ | ⟨rfl, hrole⟩ |
    ⟨hkey, hrole⟩
  · rfl
  · rfl
  · rfl
  · rfl
  · have hcontains : ["$and", "$or", "$nor", "$isolated"].contains key = false := by
      simpa using hkey
    rw [hcontains]
    rcases hrole with hrole | ⟨-, hrole⟩ | ⟨-, hrole⟩ <;> rw [hrole]

theorem elementOperator_cases {d : Document} {operators : Except Error (List Operator)}
    {clauses : Except Error (List Clause)} {op : Operator}
    (h : elementOperator d operators clauses = .ok op) :
    (Meaning.isSubfilter d = true ∧ ∃ q, clauses = .ok q ∧ op = .elementQuery q) ∨
      (Meaning.isSubfilter d = false ∧
        ∃ ops, operators = .ok ops ∧ op = .element (.operators ops)) := by
  have hquery : Meaning.isSubfilter d = (d.keys.any isQueryKey || !d.hasOperatorKey) := by
    rw [Meaning.isSubfilter, funext isQueryKey_eq]
  rw [hquery]
  unfold elementOperator at h
  split at h
  · rename_i hkeys
    obtain ⟨q, hq, h⟩ := bind_eq_ok_iff.mp h
    exact Or.inl ⟨by rw [hkeys, Bool.true_or], q, hq, (Except.ok.inj h).symm⟩
  · rename_i hkeys
    rw [Bool.not_eq_true] at hkeys
    obtain ⟨form, hform, h⟩ := bind_eq_ok_iff.mp h
    rw [hkeys, hasOperatorKey_of_operatorForm hform]
    cases form with
    | true =>
        obtain ⟨ops, hops, h⟩ := bind_eq_ok_iff.mp h
        exact Or.inr ⟨rfl, ops, hops, (Except.ok.inj h).symm⟩
    | false =>
        obtain ⟨q, hq, h⟩ := bind_eq_ok_iff.mp h
        exact Or.inl ⟨rfl, q, hq, (Except.ok.inj h).symm⟩

/-! ## One step of the compiler -/

section Steps

variable {settings : Settings} {d : Document} {key : String} {isGroup truth : Bool}
  {subfilters : List Bool}

/-- A constraint on the field of the name, unless the name has another role. -/
theorem holds_of_fieldClause {c : Except Error Constraint} {clause : Clause}
    (h : fieldClause key c = .ok clause) (hgroup : isGroup = true → keyRole key ≠ .numeric)
    (hc : ∀ k, c = .ok k → k.holds (d.resolve? key) = truth) :
    clause.holds d = Meaning.entry key isGroup subfilters truth := by
  unfold fieldClause at h
  have hfield : c.map (.field key) = .ok clause → clause.holds d = truth := by
    intro h
    obtain ⟨k, hk, rfl⟩ := map_eq_ok_iff.mp h
    exact hc k hk
  rcases keyRole_cases key with ⟨rfl, hrole⟩ | ⟨rfl, hrole⟩ | ⟨rfl, hrole⟩ | ⟨rfl, hrole⟩ |
    ⟨hkey, hrole⟩
  · cases h
  · cases h
  · cases h
  · exact Except.ok.inj h ▸ rfl
  · rw [Meaning.entry_of_not_mem hkey]
    rcases hrole with hrole | ⟨-, hrole⟩ | ⟨hnumeric, hrole⟩
    · rw [hrole] at h
      cases h
    · have hsingle : isGroup = false := Bool.eq_false_iff.mpr fun hg => hgroup hg hrole
      rw [hrole] at h
      rw [hsingle, Bool.and_false]
      exact hfield h
    · rw [hrole] at h
      rw [hnumeric, Bool.false_and]
      exact hfield h

theorem allHold_eq (d : Document) (queries : List Query) :
    allHold d queries = (queries.map (clausesHold d)).all id := by
  induction queries with
  | nil => rfl
  | cons q rest ih => rw [allHold, ih, List.map_cons, List.all_cons, id]

theorem anyHolds_eq (d : Document) (queries : List Query) :
    anyHolds d queries = (queries.map (clausesHold d)).any id := by
  induction queries with
  | nil => rfl
  | cons q rest ih => rw [anyHolds, ih, List.map_cons, List.any_cons, id]

/-- A list of filters under `$and`, `$or` or `$nor`. -/
theorem holds_of_junction {j : Junction} (hrole : keyRole key = .logical j)
    {queries : List Query} (hqueries : queries.map (clausesHold d) = subfilters) :
    (j.clause queries).holds d = Meaning.entry key isGroup subfilters truth := by
  have hall := allHold_eq d queries
  have hany := anyHolds_eq d queries
  rw [hqueries] at hall hany
  rcases keyRole_cases key with ⟨rfl, h⟩ | ⟨rfl, h⟩ | ⟨rfl, h⟩ | ⟨rfl, h⟩ | ⟨-, h | ⟨-, h⟩ | ⟨-, h⟩⟩
  all_goals cases hrole.symm.trans h
  · exact hall
  · exact hany
  · exact congrArg (!·) hany

/-- A filter, or several, under a numeric key. -/
theorem entry_numeric (hrole : keyRole key = .numeric) :
    Meaning.entry key true subfilters truth = subfilters.all id := by
  rcases keyRole_cases key with ⟨rfl, h⟩ | ⟨rfl, h⟩ | ⟨rfl, h⟩ | ⟨rfl, h⟩ |
    ⟨hkey, h | ⟨hnumeric, h⟩ | ⟨-, h⟩⟩
  all_goals cases hrole.symm.trans h
  rw [Meaning.entry_of_not_mem hkey, hnumeric]
  rfl

variable [Pattern.Engine]

theorem holds_of_plainConstraint {x : Value} (hx : x.isDocument = false) {c : Constraint}
    (h : plainConstraint x = .ok c) (v : Option Value) :
    c.holds v = Meaning.constraint settings v x := by
  cases x with
  | document fields => cases hx
  | objectId id => exact Except.ok.inj h ▸ identifierHolds_hex id v
  | regex pattern options =>
      obtain ⟨p, hp, rfl⟩ := map_eq_ok_iff.mp h
      exact Pattern.holds_of_compile hp _
  | string s =>
      rw [plainConstraint] at h
      rw [Meaning.constraint]
      split at h
      · rename_i hs
        obtain rfl := Except.ok.inj h
        rw [if_pos hs]
        cases v <;> rfl
      · rename_i hs
        obtain rfl := Except.ok.inj h
        rw [if_neg hs]
        exact literalHolds_eq ..
  | _ => exact Except.ok.inj h ▸ literalHolds_eq ..

theorem holds_of_fieldValue {v : Value} (hv : v.isDocument = false) {clause : Clause}
    (h : fieldClause key (plainConstraint v) = .ok clause) :
    clause.holds d = Meaning.entry key v.isDocument subfilters
      (Meaning.constraint settings (d.resolve? key) v) := by
  rw [hv]
  refine holds_of_fieldClause h (fun hgroup => nomatch hgroup) fun k hk => ?_
  exact holds_of_plainConstraint hv hk (d.resolve? key)

theorem holds_of_documentConstraint {c : Constraint}
    (hops : ∀ ops, compileOperators settings d d = .ok ops → ∀ v,
      operatorsHold v ops = Meaning.operators settings (Meaning.optionsBeside d) v d)
    (h : documentConstraint d (compileOperators settings d d) = .ok c) (v : Option Value) :
    c.holds v = Meaning.constraint settings v (.document d) := by
  rw [Meaning.constraint]
  rcases documentConstraint_cases h with ⟨hkey, ops, hcompiled, rfl⟩ | ⟨hkey, rfl⟩
  · rw [if_pos hkey, Constraint.holds, hops ops hcompiled]
  · rw [if_neg (Bool.eq_false_iff.mp hkey), Constraint.holds, literalHolds_eq]

theorem reads_of_elementOperator {op : Operator}
    (hops : ∀ ops, compileOperators settings d d = .ok ops → ∀ v,
      operatorsHold v ops = Meaning.operators settings (Meaning.optionsBeside d) v d)
    (hclauses : ∀ clauses, compileClauses settings d = .ok clauses → ∀ item,
      clausesHold item clauses = Meaning.entries settings item d)
    (h : elementOperator d (compileOperators settings d d) (compileClauses settings d) = .ok op)
    (v : Option Value) : Reads (some op) v (Meaning.element settings v (.document d)) := by
  rcases elementOperator_cases h with ⟨hsub, q, hcompiled, rfl⟩ | ⟨hsub, ops, hcompiled, rfl⟩
  · have hitem := hclauses q hcompiled
    refine .some trivial ?_
    cases v with
    | none => simp [Operator.holds, Meaning.element, hsub]
    | some v =>
        cases v with
        | array items =>
            simp only [Operator.holds, Meaning.element, hsub, if_true]
            refine congrArg items.any (funext fun item => ?_)
            cases item with
            | document fields => exact hitem fields
            | _ => rfl
        | _ => simp [Operator.holds, Meaning.element, hsub, hitem]
  · have hitem := hops ops hcompiled
    refine .some trivial ?_
    cases v with
    | none => simp [Operator.holds, Constraint.holds, Meaning.element, hsub, hitem]
    | some v => cases v <;> simp [Operator.holds, Constraint.holds, Meaning.element, hsub, hitem]

theorem compileOperator_of_plain {whole : Document} {operand : Value}
    (hoperand : operand.isDocument = false) :
    compileOperator settings whole key operand =
      if key = "$not" then (compileNegation operand).map some
      else if key = "$elemMatch" then .error (expectedOperand key "a document")
      else compilePlainOperator settings whole key operand := by
  cases operand with
  | document fields => cases hoperand
  | _ =>
      unfold compileOperator
      split
      · rfl
      · rfl
      · rename_i hnot helement
        rw [if_neg hnot, if_neg helement]

theorem holds_of_compileNegation {operand : Value} {op : Operator}
    (h : compileNegation operand = .ok op) (v : Option Value) :
    op.Yields ∧ op.holds v =
      Meaning.negation (Meaning.constraint settings v operand) operand := by
  cases operand with
  | boolean b => exact Except.ok.inj h ▸ ⟨trivial, rfl⟩
  | regex pattern options =>
      obtain ⟨p, hp, rfl⟩ := map_eq_ok_iff.mp h
      exact ⟨trivial, congrArg (!·) (Pattern.holds_of_compile hp _)⟩
  | _ => cases h

theorem reads_of_plainOperand {whole : Document} {operand : Value}
    (hoperand : operand.isDocument = false) {op : Option Operator} (hkey : key ≠ "$exists")
    (h : compileOperator settings whole key operand = .ok op) (v : Option Value) :
    Reads op v
      (if key = "$not" then Meaning.negation (Meaning.constraint settings v operand) operand
        else if key = "$elemMatch" then Meaning.element settings v operand
        else Meaning.plainOperator settings (Meaning.optionsBeside whole) key operand v) := by
  rw [compileOperator_of_plain hoperand] at h
  split at h
  · rename_i hnot
    obtain ⟨o, ho, rfl⟩ := map_eq_ok_iff.mp h
    obtain ⟨hyields, hholds⟩ := holds_of_compileNegation ho v
    rw [if_pos hnot]
    exact .some hyields hholds
  · rename_i hnot
    split at h
    · cases h
    · rename_i helement
      rw [if_neg hnot, if_neg helement]
      exact reads_of_compilePlainOperator hkey h v

end Steps

/-! ## The recursion -/

section Recursion

variable [Pattern.Engine]

theorem compileOperator_exists (settings : Settings) (whole : Document) (operand : Value) :
    compileOperator settings whole "$exists" operand = .ok (some (.presence operand.isTruthy)) := by
  cases operand <;> rfl

omit [Pattern.Engine] in
/-- The truth of an operator document whose first operator is known. -/
theorem operatorsHold_append {op : Option Operator} {v : Option Value} {truth : Bool}
    (h : Reads op v truth) (rest : List Operator) :
    operatorsHold v (op.toList ++ rest) = (truth && operatorsHold v rest) := by
  cases op with
  | none => rw [← h.2]; rfl
  | some o => rw [← h.2]; exact operatorsHold_cons (h.1 o rfl) v rest

mutual

theorem holds_of_compileOperators {settings : Settings} {whole : Document} :
    ∀ (fields : List (String × Value)) {ops : List Operator},
      compileOperators settings whole fields = .ok ops → ∀ v,
        operatorsHold v ops = Meaning.operators settings (Meaning.optionsBeside whole) v fields
  | [], _, h, v => by
      obtain rfl := Except.ok.inj h
      rfl
  | (key, operand) :: rest, _, h, v => by
      obtain ⟨op, hop, h⟩ := bind_eq_ok_iff.mp h
      obtain ⟨others, hothers, h⟩ := bind_eq_ok_iff.mp h
      obtain rfl := Except.ok.inj h
      rw [Meaning.operators]
      by_cases hkey : key = "$exists"
      · subst hkey
        rw [compileOperator_exists] at hop
        obtain rfl := Except.ok.inj hop
        rfl
      · rw [if_neg hkey, operatorsHold_append (reads_of_compileOperator operand hkey hop v),
          holds_of_compileOperators rest hothers]
termination_by structural fields => fields

theorem reads_of_compileOperator {settings : Settings} {whole : Document} {key : String} :
    ∀ (operand : Value) {op : Option Operator}, key ≠ "$exists" →
      compileOperator settings whole key operand = .ok op → ∀ v,
        Reads op v
          (if key = "$not" then Meaning.negation (Meaning.constraint settings v operand) operand
            else if key = "$elemMatch" then Meaning.element settings v operand
            else Meaning.plainOperator settings (Meaning.optionsBeside whole) key operand v)
  | operand, _, hkey, h, v => by
      cases operand with
      | document d =>
          unfold compileOperator at h
          split at h
          case h_1 =>
              obtain ⟨c, hc, h⟩ := bind_eq_ok_iff.mp h
              obtain rfl := Except.ok.inj h
              exact .some trivial (congrArg (!·) (holds_of_documentConstraint
                (fun _ hops => holds_of_compileOperators d hops) hc v))
          case h_2 =>
              obtain ⟨op, hop, h⟩ := bind_eq_ok_iff.mp h
              obtain rfl := Except.ok.inj h
              exact reads_of_elementOperator (fun _ hops => holds_of_compileOperators d hops)
                (fun _ hclauses => holds_of_compileClauses d hclauses) hop v
          case h_3 hnot helement =>
              rw [if_neg hnot, if_neg helement]
              exact reads_of_compilePlainOperator hkey h v
      | _ => exact reads_of_plainOperand rfl hkey h v
termination_by structural operand => operand

theorem holds_of_compileClauses {settings : Settings} :
    ∀ (fields : List (String × Value)) {clauses : List Clause},
      compileClauses settings fields = .ok clauses → ∀ d,
        clausesHold d clauses = Meaning.entries settings d fields
  | [], _, h, d => by
      obtain rfl := Except.ok.inj h
      rfl
  | (key, v) :: rest, _, h, d => by
      obtain ⟨clause, hclause, h⟩ := bind_eq_ok_iff.mp h
      obtain ⟨others, hothers, h⟩ := bind_eq_ok_iff.mp h
      obtain rfl := Except.ok.inj h
      rw [clausesHold, Meaning.entries, holds_of_compileClause v hclause,
        holds_of_compileClauses rest hothers]
termination_by structural fields => fields

theorem holds_of_compileClause {settings : Settings} {key : String} :
    ∀ (v : Value) {clause : Clause}, compileClause settings key v = .ok clause → ∀ d : Document,
      clause.holds d = Meaning.entry key v.isDocument (Meaning.subfilters settings d v)
        (Meaning.constraint settings (d.resolve? key) v)
  | v, _, h, d => by
      cases v with
      | array items =>
          unfold compileClause at h
          split at h
          · rename_i j hrole
            split at h
            · cases h
            · obtain ⟨queries, hqueries, rfl⟩ := map_eq_ok_iff.mp h
              exact holds_of_junction hrole (holds_of_compileMembers items hqueries d)
          · exact holds_of_fieldValue rfl h
      | document f =>
          unfold compileClause at h
          split at h
          · rename_i hrole
            obtain ⟨clauses, hclauses, rfl⟩ := map_eq_ok_iff.mp h
            rw [Value.isDocument, entry_numeric hrole, Clause.holds, Meaning.subfilters,
              holds_of_compileClauses f hclauses]
            exact (Bool.and_true _).symm
          · rename_i hrole
            refine holds_of_fieldClause h (fun _ => hrole) fun k hk => ?_
            exact holds_of_documentConstraint (fun _ hops => holds_of_compileOperators f hops) hk _
      | _ => exact holds_of_fieldValue rfl h
termination_by structural v => v

theorem holds_of_compileMembers {settings : Settings} {key : String} :
    ∀ (items : List Value) {queries : List Query},
      compileMembers settings key items = .ok queries → ∀ d,
        queries.map (clausesHold d) = Meaning.members settings d items
  | [], _, h, d => by
      obtain rfl := Except.ok.inj h
      rfl
  | item :: rest, _, h, d => by
      cases item with
      | document f =>
          obtain ⟨q, hq, h⟩ := bind_eq_ok_iff.mp h
          obtain ⟨others, hothers, h⟩ := bind_eq_ok_iff.mp h
          obtain rfl := Except.ok.inj h
          rw [List.map_cons, Meaning.members, holds_of_compileClauses f hq,
            holds_of_compileMembers rest hothers]
      | _ => cases h
termination_by structural items => items

end

/-! ## Filters -/

omit [Pattern.Engine] in
theorem clausesHold_groups (d : Document) (queries : List Query) :
    clausesHold d (queries.map .group) = (queries.map (clausesHold d)).all id := by
  induction queries with
  | nil => rfl
  | cons q rest ih =>
      rw [List.map_cons, clausesHold, ih, Clause.holds, List.map_cons, List.all_cons, id]

mutual

theorem holds_of_compileConditions {settings : Settings} :
    ∀ (f : List (String × Condition)) {q : Query}, compileConditions settings f = .ok q → ∀ d,
      clausesHold d q = Meaning.conditions settings d f
  | [], _, h, d => by
      obtain rfl := Except.ok.inj h
      rfl
  | (key, c) :: rest, _, h, d => by
      obtain ⟨clause, hclause, h⟩ := bind_eq_ok_iff.mp h
      obtain ⟨others, hothers, h⟩ := bind_eq_ok_iff.mp h
      obtain rfl := Except.ok.inj h
      rw [clausesHold, Meaning.conditions, holds_of_compileCondition c hclause,
        holds_of_compileConditions rest hothers]
termination_by structural f => f

theorem holds_of_compileCondition {settings : Settings} {key : String} :
    ∀ (c : Condition) {clause : Clause}, compileCondition settings key c = .ok clause →
      ∀ d : Document, clause.holds d =
        Meaning.entry key (Meaning.isGroup c) (Meaning.groups settings d c)
          (Meaning.condition settings (d.resolve? key) c)
  | c, _, h, d => by
      cases c with
      | value v => exact holds_of_compileClause v h d
      | predicate p | matcher m =>
          refine holds_of_fieldClause h (fun hgroup => nomatch hgroup) fun k hk => ?_
          exact Except.ok.inj hk ▸ rfl
      | filters fs =>
          unfold compileCondition at h
          split at h
          · rename_i j hrole
            split at h
            · cases h
            · obtain ⟨queries, hqueries, rfl⟩ := map_eq_ok_iff.mp h
              exact holds_of_junction hrole (holds_of_compileGroup fs hqueries d)
          · rename_i hrole
            split at h
            · cases h
            · obtain ⟨queries, hqueries, rfl⟩ := map_eq_ok_iff.mp h
              rw [Meaning.isGroup, entry_numeric hrole, Clause.holds, clausesHold_groups,
                holds_of_compileGroup fs hqueries, Meaning.groups]
          · rename_i hlogical hnumeric
            exact holds_of_fieldClause h (fun _ => hnumeric) fun k hk => nomatch hk
termination_by structural c => c

theorem holds_of_compileGroup {settings : Settings} :
    ∀ (fs : List (List (String × Condition))) {queries : List Query},
      compileGroup settings fs = .ok queries → ∀ d,
        queries.map (clausesHold d) = Meaning.filters settings d fs
  | [], _, h, d => by
      obtain rfl := Except.ok.inj h
      rfl
  | f :: rest, _, h, d => by
      obtain ⟨q, hq, h⟩ := bind_eq_ok_iff.mp h
      obtain ⟨others, hothers, h⟩ := bind_eq_ok_iff.mp h
      obtain rfl := Except.ok.inj h
      rw [List.map_cons, Meaning.filters, holds_of_compileConditions f hq,
        holds_of_compileGroup rest hothers]
termination_by structural fs => fs

end

/-- A condition on its own, where it is no group. -/
theorem Condition.holds_of_compile {settings : Settings} {c : Condition} {k : Constraint}
    (h : c.compile settings = .ok k) (v : Option Value) :
    k.holds v = Meaning.condition settings v c := by
  cases c with
  | value expected =>
      cases expected with
      | document d =>
          exact holds_of_documentConstraint (fun _ hops => holds_of_compileOperators d hops) h v
      | _ =>
          refine holds_of_plainConstraint rfl ?_ v
          exact h
  | predicate p | matcher m => exact Except.ok.inj h ▸ rfl
  | filters fs => cases h

/-- A query that a filter compiles to holds of the documents that the filter is
true of. -/
theorem Filter.holds_eq_meaning {settings : Settings} {f : Filter} {q : Query}
    (h : f.compile settings = .ok q) (d : Document) : q.holds d = f.meaning settings d :=
  holds_of_compileConditions f h d

end Recursion

/-- Either the field `n` is there, whatever it is, or some tag is `"x"`. -/
theorem holds_of_presence_or_tag :
    let f : Filter := [("$or", .value (.array [
      .document [("n", .document [("$exists", .boolean true), ("$gt", .int32 3)])],
      .document [("tags", .document [("$elemMatch", .document [("$in", .array [.string "x"])])])]]))]
    ∃ q, f.compile .default = .ok q ∧
      q.holds [("n", .int32 1)] = f.meaning .default [("n", .int32 1)] :=
  ⟨_, rfl, Filter.holds_eq_meaning rfl _⟩

/-- What stands after an `$exists` is not asked for. -/
example : Filter.meaning .default
    [("n", .value (.document [("$exists", .boolean true), ("$gt", .int32 3)]))]
    [("n", .int32 1)] = true := rfl

end DocStore
