import DocStore.Proofs.Compilation
import DocStore.Proofs.Grammar

/-!
# The compiler accepts the well-formed filters

A filter compiles exactly if it is well formed
(`Filter.compiles_iff_grammatical`). Both directions go through at once: each
recursive function of the compiler goes through just if the function of the
grammar that stands beside it is true (`isOk_compileOperators` and those that
stand with it), because a sequence of steps goes through just if each of them
does (`isOk_bind`).
-/

namespace DocStore

/-! ## Steps that go through -/

section Steps

variable {ε α β γ : Type} {x : Except ε α}

theorem isOk_map (f : α → β) (x : Except ε α) : (x.map f).isOk = x.isOk := by
  cases x <;> rfl

/-- If the second step goes through or not whatever the first one gives. -/
theorem isOk_bind {f : α → Except ε β} {b : Bool} (h : ∀ a, x = .ok a → (f a).isOk = b) :
    (x >>= f).isOk = (x.isOk && b) := by
  cases x with
  | error e => rfl
  | ok a => exact h a rfl

/-- A step that is followed by nothing that can fail. -/
theorem isOk_bind_pure (f : α → β) (x : Except ε α) :
    (x >>= fun a => pure (f a)).isOk = x.isOk :=
  isOk_map f x

/-- Two steps, neither of which looks at what the other gives. -/
theorem isOk_bind_bind_pure (f : α → β → γ) (x : Except ε α) (y : Except ε β) :
    (x >>= fun a => y >>= fun b => pure (f a b)).isOk = (x.isOk && y.isOk) :=
  isOk_bind fun a _ => isOk_bind_pure (f a) y

theorem isOk_mapM (f : α → Except ε β) (xs : List α) :
    (xs.mapM f).isOk = xs.all fun x => (f x).isOk := by
  induction xs with
  | nil => rfl
  | cons x rest ih =>
      rw [List.mapM_cons, List.all_cons, ← ih]
      exact isOk_bind_bind_pure ..

end Steps

/-! ## Operands -/

theorem isOk_compileChoices [Pattern.Engine] (settings : Settings) (key : String)
    (items : List Value) :
    (compileChoices settings key (.array items)).isOk = items.all Grammar.isAlternative := by
  rw [compileChoices, isOk_mapM]
  refine congrArg items.all (funext fun item => ?_)
  cases item with
  | regex pattern options => exact isOk_map ..
  | _ => rfl

/-- Cutting an integer to the range of a signed word keeps its sign. -/
theorem clampInt64_nonneg_iff (n : Int) : 0 ≤ Double.clampInt64 n ↔ 0 ≤ n := by
  have hpower : (twoTo 63 : Int) = 9223372036854775808 := rfl
  simp only [Double.clampInt64, hpower]
  omega

theorem isOk_compileSize (operand : Value) :
    (compileSize operand).isOk = (Grammar.whole? operand).any (0 ≤ ·) := by
  have hnumber : (compileSize operand).isOk = operand.wholeNumber?.any (0 ≤ ·) := by
    unfold compileSize
    cases operand.wholeNumber? with
    | none => rfl
    | some n => cases n <;> rfl
  rw [hnumber]
  cases operand with
  | double d =>
      rw [Value.wholeNumber?, Grammar.whole?, Option.any_map]
      refine congrArg (Option.any · d.integral?) (funext fun n => ?_)
      simp [clampInt64_nonneg_iff]
  | _ => rfl

theorem isSome_ofCode? (code : Int) : (Kind.ofCode? code).isSome = Grammar.isKindCode code := by
  unfold Kind.ofCode?
  split
  case h_23 =>
    have hunknown : Grammar.isKindCode code = false := by
      simp only [imp_false] at *
      simp [Grammar.isKindCode]
      omega
    exact hunknown.symm
  all_goals rfl

theorem isSome_ofAlias? (name : String) :
    (Kind.ofAlias? name).isSome = Grammar.kindNames.contains name := by
  unfold Kind.ofAlias?
  split
  case h_23 =>
    have hunknown : Grammar.kindNames.contains name = false := by
      simp only [Grammar.kindNames, List.contains_eq_mem, decide_eq_false_iff_not, List.mem_cons,
        List.not_mem_nil, or_false, not_or]
      and_intros <;> assumption
    exact hunknown.symm
  all_goals rfl

/-- No code lies outside the range of a signed word. -/
theorem isKindCode_clampInt64 (n : Int) :
    Grammar.isKindCode (Double.clampInt64 n) = Grammar.isKindCode n := by
  have hpower : (twoTo 63 : Int) = 9223372036854775808 := rfl
  rw [Bool.eq_iff_iff]
  simp [Grammar.isKindCode, Double.clampInt64, hpower]
  omega

theorem isOk_compileKind (operand : Value) :
    (compileKind operand).isOk = Grammar.isKind operand := by
  have hkind : (compileKind operand).isOk = (kindOf? operand).isSome := by
    unfold compileKind
    cases kindOf? operand <;> rfl
  rw [hkind]
  cases operand with
  | string name => exact isSome_ofAlias? name
  | double d =>
      simp only [kindOf?, Value.wholeNumber?, Grammar.isKind, Grammar.whole?]
      cases d.integral? with
      | none => rfl
      | some n => simp [isSome_ofCode?, isKindCode_clampInt64]
  | int32 n => exact isSome_ofCode? _
  | int64 n => exact isSome_ofCode? _
  | _ => rfl

theorem isOk_compileKinds {operand : Value} (h : operand.isArray = false) :
    (compileKinds operand).isOk = Grammar.isKind operand := by
  have hsingle : compileKinds operand = (compileKind operand).map ([·]) := by
    cases operand with
    | array items => cases h
    | _ => rfl
  rw [hsingle, isOk_map, isOk_compileKind]

theorem isOk_compileRegex [Pattern.Engine] (operand : Value) (whole : Document) :
    (compileRegex operand (whole.get? "$options")).isOk =
      Grammar.isExpressionBeside whole operand := by
  unfold compileRegex Grammar.isExpressionBeside Meaning.optionsBeside
  cases whole.get? "$options" with
  | none => cases operand <;> rfl
  | some options =>
      cases options with
      | string flags => cases operand <;> rfl
      | _ => rfl

theorem isOk_compilePlainOperator [Pattern.Engine] (settings : Settings) (whole : Document)
    (key : String) (operand : Value) :
    (compilePlainOperator settings whole key operand).isOk =
      Grammar.plainOperator settings whole key operand := by
  unfold compilePlainOperator
  split
  case h_7 | h_8 =>
      rw [isOk_map]
      cases operand with
      | array items => exact isOk_compileChoices ..
      | _ => rfl
  case h_10 => rw [isOk_map]; exact isOk_compileSize operand
  case h_11 =>
      rw [isOk_map]
      cases operand with
      | array items => exact (isOk_mapM ..).trans (congrArg _ (funext isOk_compileKind))
      | _ => exact isOk_compileKinds rfl
  case h_12 => rw [isOk_map]; exact isOk_compileRegex operand whole
  case h_13 =>
      rw [Grammar.plainOperator]
      cases whole.contains "$regex" <;> rfl
  case h_14 | h_15 => cases operand <;> rfl
  case h_16 =>
      have hcustom : (compileCustom settings key operand).isOk =
          (settings.operators.get? key).isSome := by
        unfold compileCustom
        cases settings.operators.get? key <;> rfl
      rw [isOk_map, hcustom]
      unfold Grammar.plainOperator
      -- None of the built-in names is left.
      split <;> first | contradiction | rfl
  all_goals rfl

/-! ## Documents -/

/-- What follows the form of a document is reached if its keys are not mixed. -/
theorem isOk_operatorForm_bind {α : Type} (d : Document) (k : Bool → Except Error α) :
    (d.operatorForm >>= k).isOk =
      if d.hasOperatorKey then d.keys.all Document.isOperatorKey && (k true).isOk
      else (k false).isOk := by
  unfold Document.operatorForm
  cases d.hasOperatorKey with
  | false => rfl
  | true =>
      simp only [if_true]
      cases hplain : d.keys.find? fun key => !Document.isOperatorKey key with
      | none =>
          have hall : d.keys.all Document.isOperatorKey = true := by
            rw [List.all_eq_true]
            intro key hkey
            simpa using List.find?_eq_none.mp hplain key hkey
          rw [hall]
          rfl
      | some plain =>
          have hmixed : d.keys.all Document.isOperatorKey = false := by
            rw [List.all_eq_false]
            refine ⟨plain, List.mem_of_find?_eq_some hplain, ?_⟩
            simpa using List.find?_some hplain
          rw [hmixed]
          rfl

theorem isOk_documentConstraint (d : Document) (operators : Except Error (List Operator)) :
    (documentConstraint d operators).isOk =
      if d.hasOperatorKey then d.keys.all Document.isOperatorKey && operators.isOk else true := by
  rw [documentConstraint, isOk_operatorForm_bind]
  cases operators <;> rfl

theorem isOk_elementOperator (d : Document) (operators : Except Error (List Operator))
    (clauses : Except Error (List Clause)) :
    (elementOperator d operators clauses).isOk =
      if Meaning.isSubfilter d then clauses.isOk
      else d.keys.all Document.isOperatorKey && operators.isOk := by
  have hsub : Meaning.isSubfilter d = (d.keys.any isQueryKey || !d.hasOperatorKey) := by
    rw [Meaning.isSubfilter, funext isQueryKey_eq]
  have hclauses : (do return Operator.elementQuery (← clauses) : Except Error Operator).isOk =
      clauses.isOk := by
    cases clauses <;> rfl
  have hoperators : (do return Operator.element (.operators (← operators)) :
      Except Error Operator).isOk = operators.isOk := by
    cases operators <;> rfl
  unfold elementOperator
  rw [hsub]
  cases d.keys.any isQueryKey with
  | true => exact hclauses
  | false =>
      simp only [Bool.false_eq_true, if_false, Bool.false_or]
      rw [isOk_operatorForm_bind]
      cases d.hasOperatorKey with
      | true => exact congrArg (d.keys.all Document.isOperatorKey && ·) hoperators
      | false => exact hclauses

theorem isOk_compileNegation [Pattern.Engine] (settings : Settings) {operand : Value}
    (h : operand.isDocument = false) :
    (compileNegation operand).isOk =
      (Grammar.isNegatable operand && Grammar.constraint settings operand) := by
  cases operand with
  | document d => cases h
  | regex pattern options => exact isOk_map ..
  | _ => rfl

theorem isOk_plainConstraint [Pattern.Engine] (settings : Settings) {v : Value}
    (h : v.isDocument = false) :
    (plainConstraint v).isOk = Grammar.constraint settings v := by
  cases v with
  | document d => cases h
  | regex pattern options => exact isOk_map ..
  | string s =>
      rw [plainConstraint]
      split <;> rfl
  | _ => rfl

/-! ## Keys -/

/-- An entry goes by the role of its key. -/
theorem Grammar.entry_eq (key : String) (list : Bool) (group : Option Bool) (constraint : Bool) :
    entry key list group constraint =
      match keyRole key with
      | .logical _ => list
      | .isolated => true
      | .unknownOperator => false
      | .numeric => group.getD constraint
      | .field => constraint := by
  unfold entry
  split
  case h_5 hand hor hnor hisolated =>
      rw [keyRole_of_not_mem (by simpa using ⟨hand, hor, hnor, hisolated⟩)]
      cases Document.isOperatorKey key <;> cases isNumericKey key <;> rfl
  all_goals rfl

/-- A constraint on a field, where the key is not one for lists or groups. -/
theorem isOk_fieldClause {key : String} (c : Except Error Constraint) (list : Bool)
    (group : Option Bool) (hlist : list = true → ∀ j, keyRole key ≠ .logical j)
    (hgroup : group.isSome = true → keyRole key ≠ .numeric) :
    (fieldClause key c).isOk = Grammar.entry key list group c.isOk := by
  rw [Grammar.entry_eq, fieldClause]
  cases hrole : keyRole key with
  | logical j =>
      have hnone : list = false := Bool.eq_false_iff.mpr fun h => hlist h j hrole
      rw [hnone]
      rfl
  | isolated => rfl
  | unknownOperator => rfl
  | numeric =>
      have hnone : group = none := Option.not_isSome_iff_eq_none.mp fun h => hgroup h hrole
      rw [hnone]
      exact isOk_map ..
  | field => exact isOk_map ..

theorem Grammar.list_eq_false [Pattern.Engine] {settings : Settings} {v : Value}
    (h : v.isArray = false) :
    list settings v = false := by
  cases v with
  | array items => cases h
  | _ => rfl

theorem Grammar.group?_eq_none [Pattern.Engine] {settings : Settings} {v : Value}
    (h : v.isDocument = false) :
    group? settings v = none := by
  cases v with
  | document f => cases h
  | _ => rfl

/-- Neither a document nor, under a key for lists, an array. -/
theorem isOk_fieldValue [Pattern.Engine] {settings : Settings} {key : String} {v : Value}
    (hdocument : v.isDocument = false)
    (harray : v.isArray = true → ∀ j, keyRole key ≠ .logical j) :
    (fieldClause key (plainConstraint v)).isOk =
      Grammar.entry key (Grammar.list settings v) (Grammar.group? settings v)
        (Grammar.constraint settings v) := by
  rw [← isOk_plainConstraint settings hdocument, Grammar.group?_eq_none hdocument]
  refine isOk_fieldClause _ _ none (fun hlist => harray ?_) nofun
  exact Bool.of_not_eq_false fun h => by simp [Grammar.list_eq_false h] at hlist

theorem isOk_plainOperand [Pattern.Engine] {settings : Settings} {whole : Document} {key : String}
    {operand : Value} (h : operand.isDocument = false) :
    (compileOperator settings whole key operand).isOk =
      if key = "$not" then Grammar.isNegatable operand && Grammar.constraint settings operand
      else if key = "$elemMatch" then Grammar.element settings operand
      else Grammar.plainOperator settings whole key operand := by
  rw [compileOperator_of_plain h]
  split
  · rw [isOk_map, isOk_compileNegation settings h]
  · split
    · cases operand with
      | document d => cases h
      | _ => rfl
    · exact isOk_compilePlainOperator ..

theorem isOk_documentOperand [Pattern.Engine] {settings : Settings} {whole : Document}
    {key : String} {d : Document}
    (hops : (compileOperators settings d d).isOk = Grammar.operators settings d d)
    (hclauses : (compileClauses settings d).isOk = Grammar.entries settings d) :
    (compileOperator settings whole key (.document d)).isOk =
      if key = "$not" then
        Grammar.isNegatable (.document d) && Grammar.constraint settings (.document d)
      else if key = "$elemMatch" then Grammar.element settings (.document d)
      else Grammar.plainOperator settings whole key (.document d) := by
  unfold compileOperator
  split
  case h_1 =>
      rw [isOk_bind_pure, isOk_documentConstraint, hops]
      rfl
  case h_2 =>
      rw [isOk_bind_pure, isOk_elementOperator, hops, hclauses]
      rfl
  case h_3 hnot helement =>
      rw [if_neg hnot, if_neg helement]
      exact isOk_compilePlainOperator ..

/-- A list of filters is well formed unless it is empty or a member fails. -/
theorem isOk_nonempty {α β : Type} {e : Error} (members : List α) (f : β → Clause)
    (compiled : Except Error β) :
    (if members.isEmpty then .error e else compiled.map f).isOk =
      (!members.isEmpty && compiled.isOk) := by
  cases members.isEmpty with
  | true => rfl
  | false => exact isOk_map ..

/-! ## The recursion -/

section Recursion

variable [Pattern.Engine]

mutual

theorem isOk_compileOperators {settings : Settings} {whole : Document} :
    ∀ fields : List (String × Value),
      (compileOperators settings whole fields).isOk = Grammar.operators settings whole fields
  | [] => rfl
  | (key, operand) :: rest => by
      rw [compileOperators, Grammar.operators, ← isOk_compileOperator operand key,
        ← isOk_compileOperators rest]
      exact isOk_bind_bind_pure ..
termination_by structural fields => fields

theorem isOk_compileOperator {settings : Settings} {whole : Document} :
    ∀ (operand : Value) (key : String), (compileOperator settings whole key operand).isOk =
      if key = "$not" then Grammar.isNegatable operand && Grammar.constraint settings operand
      else if key = "$elemMatch" then Grammar.element settings operand
      else Grammar.plainOperator settings whole key operand
  | operand, key => by
      cases operand with
      | document d => exact isOk_documentOperand (isOk_compileOperators d) (isOk_compileClauses d)
      | _ => exact isOk_plainOperand rfl
termination_by structural operand => operand

theorem isOk_compileClauses {settings : Settings} :
    ∀ fields : List (String × Value),
      (compileClauses settings fields).isOk = Grammar.entries settings fields
  | [] => rfl
  | (key, v) :: rest => by
      rw [compileClauses, Grammar.entries, ← isOk_compileClause v key, ← isOk_compileClauses rest]
      exact isOk_bind_bind_pure ..
termination_by structural fields => fields

theorem isOk_compileClause {settings : Settings} :
    ∀ (v : Value) (key : String), (compileClause settings key v).isOk =
      Grammar.entry key (Grammar.list settings v) (Grammar.group? settings v)
        (Grammar.constraint settings v)
  | v, key => by
      cases v with
      | array items =>
          unfold compileClause
          split
          · rename_i j hrole
            rw [Grammar.entry_eq, hrole, isOk_nonempty, isOk_compileMembers items key]
            rfl
          · rename_i hrole
            exact isOk_fieldValue rfl fun _ => hrole
      | document f =>
          unfold compileClause
          split
          · rename_i hrole
            rw [Grammar.entry_eq, hrole, Grammar.group?, ← isOk_compileClauses f]
            exact isOk_map ..
          · rename_i hrole
            rw [Grammar.list_eq_false rfl, Grammar.constraint, ← isOk_compileOperators f,
              ← isOk_documentConstraint]
            exact isOk_fieldClause _ false _ nofun fun _ => hrole
      | _ => exact isOk_fieldValue rfl fun h => nomatch h
termination_by structural v => v

theorem isOk_compileMembers {settings : Settings} :
    ∀ (items : List Value) (key : String),
      (compileMembers settings key items).isOk = Grammar.members settings items
  | [], _ => rfl
  | item :: rest, key => by
      cases item with
      | document f =>
          rw [compileMembers, Grammar.members, ← isOk_compileClauses f,
            ← isOk_compileMembers rest key]
          exact isOk_bind_bind_pure ..
      | _ => rfl
termination_by structural items => items

end

/-! ## Filters -/

mutual

theorem isOk_compileConditions {settings : Settings} :
    ∀ f : List (String × Condition),
      (compileConditions settings f).isOk = Grammar.conditions settings f
  | [] => rfl
  | (key, c) :: rest => by
      rw [compileConditions, Grammar.conditions, ← isOk_compileCondition c key,
        ← isOk_compileConditions rest]
      exact isOk_bind_bind_pure ..
termination_by structural f => f

theorem isOk_compileCondition {settings : Settings} :
    ∀ (c : Condition) (key : String), (compileCondition settings key c).isOk =
      Grammar.entry key (Grammar.conditionList settings c) (Grammar.conditionGroup? settings c)
        (Grammar.condition settings c)
  | c, key => by
      cases c with
      | value v => exact isOk_compileClause v key
      | predicate p => exact isOk_fieldClause (.ok (.predicate p)) false none nofun nofun
      | matcher m => exact isOk_fieldClause (.ok (.matcher m)) false none nofun nofun
      | filters fs =>
          unfold compileCondition
          split
          · rename_i j hrole
            rw [Grammar.entry_eq, hrole, isOk_nonempty, isOk_compileGroup fs]
            rfl
          · rename_i hrole
            rw [Grammar.entry_eq, hrole, isOk_nonempty, isOk_compileGroup fs]
            rfl
          · rename_i hlogical hnumeric
            exact isOk_fieldClause (.error misplacedGroup) _ _ (fun _ => hlogical) fun _ => hnumeric
termination_by structural c => c

theorem isOk_compileGroup {settings : Settings} :
    ∀ fs : List (List (String × Condition)),
      (compileGroup settings fs).isOk = Grammar.filters settings fs
  | [] => rfl
  | f :: rest => by
      rw [compileGroup, Grammar.filters, ← isOk_compileConditions f, ← isOk_compileGroup rest]
      exact isOk_bind_bind_pure ..
termination_by structural fs => fs

end

/-- A filter compiles exactly if it is well formed. -/
theorem Filter.compiles_iff_grammatical (settings : Settings) (f : Filter) :
    (∃ q, f.compile settings = .ok q) ↔ f.isGrammatical settings = true := by
  rw [← isOk_iff, Filter.compile, isOk_compileConditions, Filter.isGrammatical]

end Recursion

/-- One key that is not an operator spoils the others. -/
example :
    Filter.isGrammatical .default [("n", .value (.document [("$gt", .int32 1)]))] = true ∧
      Filter.isGrammatical .default
        [("n", .value (.document [("$gt", .int32 1), ("unit", .null)]))] = false := by
  decide

end DocStore
