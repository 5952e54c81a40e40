import DocStore.Proofs.Compilation
import DocStore.Proofs.Pieces

/-!
# Settings that a filter does not use

A filter compiles to the same query under two settings unless one of its
operators tells them apart (`Filter.compile_settings`). Operators are told
apart in two ways only: by the tests of the caller's that are known, and by
whether a string `/pattern/flags` among alternatives is a pattern.

More tests can turn a fault into a query, but never a query into anything else.
Both cases go through one induction over the compiler, about outcomes of which
either everything stays, or everything but the faults (`Stays`).
-/

namespace DocStore

/-! ## Outcomes that stay -/

section Stays

variable {ε α β : Type} {exact : Bool} {x y : Except ε α}

/-- The outcome stays what it is; a fault need not, unless all has to be
exact. -/
def Stays (exact : Bool) (x y : Except ε α) : Prop := x = y ∨ exact = false ∧ x.isOk = false

theorem Stays.refl (x : Except ε α) : Stays exact x x := Or.inl rfl

theorem Stays.eq (h : Stays true x y) : x = y := by
  rcases h with h | ⟨h, -⟩
  · exact h
  · cases h

theorem Stays.ok {a : α} (h : Stays exact x y) (hx : x = .ok a) : y = .ok a := by
  rcases h with h | ⟨-, h⟩
  · exact h ▸ hx
  · rw [hx] at h
    cases h

theorem Stays.bind {f g : α → Except ε β} (h : Stays exact x y)
    (hfg : ∀ a, x = .ok a → Stays exact (f a) (g a)) : Stays exact (x >>= f) (y >>= g) := by
  rcases h with rfl | ⟨hexact, hfault⟩
  · cases x with
    | error e => exact .refl _
    | ok a => exact hfg a rfl
  · refine Or.inr ⟨hexact, ?_⟩
    cases x with
    | error e => rfl
    | ok a => cases hfault

theorem Stays.map (h : Stays exact x y) (f : α → β) : Stays exact (x.map f) (y.map f) := by
  rcases h with rfl | ⟨hexact, hfault⟩
  · exact .refl _
  · refine Or.inr ⟨hexact, ?_⟩
    cases x with
    | error e => rfl
    | ok a => cases hfault

end Stays

/-! ## Documents and keys -/

section Steps

variable {exact : Bool} {s t : Settings} {d : Document} {key : String}
  {ops ops' : Except Error (List Operator)} {clauses clauses' : Except Error (List Clause)}

/-- The operator comes to the same under both settings. -/
def Piece.Indifferent [Pattern.Engine] (exact : Bool) (s t : Settings) : Piece → Prop
  | .constraint _ => True
  | .operator key operand => ∀ whole,
      Stays exact (compilePlainOperator s whole key operand)
        (compilePlainOperator t whole key operand)

theorem stays_documentConstraint (h : d.hasOperatorKey = true → Stays exact ops ops') :
    Stays exact (documentConstraint d ops) (documentConstraint d ops') := by
  refine (Stays.refl d.operatorForm).bind fun form hform => ?_
  have hkey := hasOperatorKey_of_operatorForm hform
  cases form with
  | true => exact (h hkey).bind fun _ _ => .refl _
  | false => exact .refl _

theorem stays_elementOperator
    (hclauses : Meaning.isSubfilter d = true → Stays exact clauses clauses')
    (hops : Meaning.isSubfilter d = false → Stays exact ops ops') :
    Stays exact (elementOperator d ops clauses) (elementOperator d ops' clauses') := by
  rw [Meaning.isSubfilter, ← funext isQueryKey_eq] at hclauses hops
  unfold elementOperator
  cases hquery : d.keys.any isQueryKey with
  | true =>
      rw [hquery, Bool.true_or] at hclauses
      exact (hclauses rfl).bind fun _ _ => .refl _
  | false =>
      rw [hquery, Bool.false_or] at hclauses hops
      refine (Stays.refl d.operatorForm).bind fun form hform => ?_
      rw [hasOperatorKey_of_operatorForm hform] at hclauses hops
      cases form with
      | true => exact (hops rfl).bind fun _ _ => .refl _
      | false => exact (hclauses rfl).bind fun _ _ => .refl _

/-- A constraint counts unless the key has a role of its own. -/
theorem stays_fieldClause {c c' : Except Error Constraint}
    (h : keyRole key = .field ∨ keyRole key = .numeric → Stays exact c c') :
    Stays exact (fieldClause key c) (fieldClause key c') := by
  unfold fieldClause
  cases hrole : keyRole key with
  | numeric => exact (h (Or.inr hrole)).map _
  | field => exact (h (Or.inl hrole)).map _
  | _ => exact .refl _

theorem stays_nonempty {α β : Type} {x y : Except Error β} (e : Error) (members : List α)
    (f : β → Clause) (h : Stays exact x y) :
    Stays exact (if members.isEmpty then .error e else x.map f)
      (if members.isEmpty then .error e else y.map f) := by
  split
  · exact .refl _
  · exact h.map f

end Steps

/-! ## The recursion -/

section Recursion

variable [Pattern.Engine] {exact : Bool} {s t : Settings}

mutual

theorem stays_compileOperators {whole : Document} :
    ∀ fields : List (String × Value),
      (∀ p ∈ Piece.ofOperators fields, p.Indifferent exact s t) →
        Stays exact (compileOperators s whole fields) (compileOperators t whole fields)
  | [], _ => .refl _
  | (key, operand) :: rest, h => by
      rw [Piece.ofOperators, List.forall_mem_cons, List.forall_mem_append] at h
      obtain ⟨hkey, hinside, hrest⟩ := h
      refine (stays_compileOperator operand hkey hinside).bind fun op _ => ?_
      exact (stays_compileOperators rest hrest).bind fun _ _ => .refl _
termination_by structural fields => fields

theorem stays_compileOperator {whole : Document} {key : String} :
    ∀ operand : Value, (Piece.operator key operand).Indifferent exact s t →
      (∀ p ∈ (if key = "$not" then Piece.ofConstraint operand
          else if key = "$elemMatch" then Piece.ofElement operand else []),
        p.Indifferent exact s t) →
      Stays exact (compileOperator s whole key operand) (compileOperator t whole key operand)
  | operand, hkey, hinside => by
      cases operand with
      | document d =>
          unfold compileOperator
          split
          case h_1 =>
              rw [if_pos rfl, Piece.ofConstraint, List.forall_mem_cons] at hinside
              refine (stays_documentConstraint fun hd => ?_).bind fun _ _ => .refl _
              rw [if_pos hd] at hinside
              exact stays_compileOperators d hinside.2
          case h_2 =>
              rw [if_neg (by decide), if_pos rfl, Piece.ofElement] at hinside
              refine (stays_elementOperator (fun hd => ?_) fun hd => ?_).bind fun _ _ => .refl _
              · rw [if_pos hd] at hinside
                exact stays_compileClauses d hinside
              · rw [hd, if_neg Bool.false_ne_true] at hinside
                exact stays_compileOperators d hinside
          case h_3 => exact hkey whole
      | _ =>
          rw [compileOperator_of_plain rfl, compileOperator_of_plain rfl]
          split
          · exact .refl _
          · split
            · exact .refl _
            · exact hkey whole
termination_by structural operand => operand

theorem stays_compileClauses :
    ∀ fields : List (String × Value),
      (∀ p ∈ Piece.ofEntries fields, p.Indifferent exact s t) →
        Stays exact (compileClauses s fields) (compileClauses t fields)
  | [], _ => .refl _
  | (key, v) :: rest, h => by
      rw [Piece.ofEntries, List.forall_mem_append] at h
      refine (stays_compileClause v h.1).bind fun clause _ => ?_
      exact (stays_compileClauses rest h.2).bind fun _ _ => .refl _
termination_by structural fields => fields

theorem stays_compileClause {key : String} :
    ∀ v : Value,
      (∀ p ∈ Piece.ofEntry key v.isDocument (Piece.ofSubfilters v) (Piece.ofConstraint v),
        p.Indifferent exact s t) →
      Stays exact (compileClause s key v) (compileClause t key v)
  | v, h => by
      cases v with
      | array items =>
          unfold compileClause
          split
          · rename_i j hrole
            rw [Piece.ofEntry, hrole] at h
            exact stays_nonempty _ items _ (stays_compileMembers items h)
          · exact .refl _
      | document f =>
          unfold compileClause
          split
          · rename_i hrole
            rw [Piece.ofEntry, hrole] at h
            exact (stays_compileClauses f h).map _
          · rename_i hnumeric
            refine stays_fieldClause fun hrole => stays_documentConstraint fun hf => ?_
            rw [Piece.ofEntry, hrole.resolve_right hnumeric] at h
            simp only [Piece.ofConstraint, hf, if_true, List.forall_mem_cons] at h
            exact stays_compileOperators f h.2
      | _ => exact .refl _
termination_by structural v => v

theorem stays_compileMembers {key : String} :
    ∀ items : List Value, (∀ p ∈ Piece.ofMembers items, p.Indifferent exact s t) →
      Stays exact (compileMembers s key items) (compileMembers t key items)
  | [], _ => .refl _
  | item :: rest, h => by
      cases item with
      | document f =>
          rw [Piece.ofMembers, List.forall_mem_append] at h
          refine (stays_compileClauses f h.1).bind fun q _ => ?_
          exact (stays_compileMembers rest h.2).bind fun _ _ => .refl _
      | _ => exact .refl _
termination_by structural items => items

end

mutual

theorem stays_compileConditions :
    ∀ f : List (String × Condition),
      (∀ p ∈ Piece.ofConditions f, p.Indifferent exact s t) →
        Stays exact (compileConditions s f) (compileConditions t f)
  | [], _ => .refl _
  | (key, c) :: rest, h => by
      rw [Piece.ofConditions, List.forall_mem_append] at h
      refine (stays_compileCondition c h.1).bind fun clause _ => ?_
      exact (stays_compileConditions rest h.2).bind fun _ _ => .refl _
termination_by structural f => f

theorem stays_compileCondition {key : String} :
    ∀ c : Condition,
      (∀ p ∈ Piece.ofEntry key (Meaning.isGroup c) (Piece.ofGroups c) (Piece.ofCondition c),
        p.Indifferent exact s t) →
      Stays exact (compileCondition s key c) (compileCondition t key c)
  | c, h => by
      cases c with
      | value v => exact stays_compileClause v h
      | predicate p | matcher m => exact .refl _
      | filters fs =>
          unfold compileCondition
          split
          · rename_i j hrole
            rw [Piece.ofEntry, hrole] at h
            exact stays_nonempty _ fs _ (stays_compileGroup fs h)
          · rename_i hrole
            rw [Piece.ofEntry, hrole] at h
            exact stays_nonempty _ fs _ (stays_compileGroup fs h)
          · exact .refl _
termination_by structural c => c

theorem stays_compileGroup :
    ∀ fs : List (List (String × Condition)),
      (∀ p ∈ Piece.ofFilters fs, p.Indifferent exact s t) →
        Stays exact (compileGroup s fs) (compileGroup t fs)
  | [], _ => .refl _
  | f :: rest, h => by
      rw [Piece.ofFilters, List.forall_mem_append] at h
      refine (stays_compileConditions f h.1).bind fun q _ => ?_
      exact (stays_compileGroup rest h.2).bind fun _ _ => .refl _
termination_by structural fs => fs

end

end Recursion

/-! ## More operators -/

/-- Every test that the first operators have under a name is the one that the
others have under it. -/
def Operators.Extends (more ops : Operators) : Prop :=
  ∀ name test, ops.get? name = some test → more.get? name = some test

/-- An operator of a new name takes nothing away. -/
theorem Operators.extends_insert {ops : Operators} {name : String} (hnew : ops.get? name = none)
    (test : CustomTest) : (ops.insert name test).Extends ops := by
  intro other found hfound
  induction ops with
  | nil => cases hfound
  | cons op rest ih =>
      obtain ⟨n, t⟩ := op
      rw [get?, List.lookup_cons] at hnew hfound
      cases hother : name == n with
      | true =>
          rw [hother] at hnew
          cases hnew
      | false =>
          rw [hother] at hnew
          have hne : n ≠ name := fun h => by simp [h] at hother
          rw [insert, if_neg hne, get?, List.lookup_cons]
          cases hn : other == n with
          | true =>
              rw [hn] at hfound
              exact hfound
          | false =>
              rw [hn] at hfound
              exact ih hnew hfound

/-- With more operators, a fault is all that can change. -/
theorem Piece.indifferent_of_extends [Pattern.Engine] {ops more : Operators} (h : more.Extends ops)
    (patterns : Bool) (p : Piece) : p.Indifferent false ⟨patterns, ops⟩ ⟨patterns, more⟩ := by
  cases p with
  | constraint v => trivial
  | operator key operand =>
      intro whole
      unfold compilePlainOperator
      split
      case h_16 =>
          refine Stays.map ?_ some
          unfold compileCustom
          cases htest : Operators.get? ops key with
          | none => exact Or.inr ⟨rfl, rfl⟩
          | some test =>
              simp only [h key test htest]
              exact .refl _
      all_goals exact .refl _

/-! ## Strings that look like patterns -/

/-- The string reads `/pattern/flags`, where the flags are letters, or none. -/
def Pattern.IsDelimited (s : String) : Prop :=
  ∃ pattern flags : String, s = "/" ++ pattern ++ "/" ++ flags ∧ flags.toList.all Char.isAlpha

theorem Pattern.split_last_slash {body pattern : List Char} {slash : Char}
    (h : body.reverse.dropWhile (· != '/') = slash :: pattern) :
    body = pattern.reverse ++ '/' :: (body.reverse.takeWhile (· != '/')).reverse := by
  have hslash : slash = '/' := by
    have hhead := List.head?_dropWhile_not (· != '/') body.reverse
    rw [h] at hhead
    simpa using hhead
  calc body
      = (body.reverse.takeWhile (· != '/') ++ body.reverse.dropWhile (· != '/')).reverse := by
        rw [List.takeWhile_append_dropWhile, List.reverse_reverse]
    _ = pattern.reverse ++ '/' :: (body.reverse.takeWhile (· != '/')).reverse := by
        rw [h, hslash, List.reverse_append, List.reverse_cons, List.append_assoc]
        rfl

theorem Pattern.isDelimited_of_delimited? {s : String} {found : String × String}
    (h : delimited? s = some found) : IsDelimited s := by
  unfold delimited? at h
  split at h
  case h_2 => cases h
  case h_1 body hbody =>
      simp only at h
      split at h
      case h_2 => cases h
      case h_1 slash pattern hdrop =>
          have hsplit := split_last_slash hdrop
          generalize body.reverse.takeWhile (· != '/') = flags at h hsplit
          split at h
          case isFalse => cases h
          case isTrue hflags =>
              refine ⟨String.ofList pattern.reverse, String.ofList flags.reverse, ?_, ?_⟩
              · apply String.toList_inj.mp
                rw [hbody, hsplit]
                simp
              · rw [String.toList_ofList, List.all_reverse]
                exact hflags

theorem mapM_congr_of_mem {ε α β : Type} {f g : α → Except ε β} {xs : List α}
    (h : ∀ x ∈ xs, f x = g x) : xs.mapM f = xs.mapM g := by
  induction xs with
  | nil => rfl
  | cons x rest ih =>
      obtain ⟨hx, hrest⟩ := List.forall_mem_cons.mp h
      rw [List.mapM_cons, List.mapM_cons, hx, ih hrest]

theorem compileChoices_of_not_delimited [Pattern.Engine] {ops : Operators} {operand : Value}
    (h : ∀ items, operand = .array items → ∀ text, .string text ∈ items →
      ¬Pattern.IsDelimited text) (key : String) :
    compileChoices ⟨true, ops⟩ key operand = compileChoices ⟨false, ops⟩ key operand := by
  cases operand with
  | array items =>
      refine mapM_congr_of_mem fun item hmem => ?_
      cases item with
      | string text =>
          have hplain : Pattern.delimited? text = none :=
            Option.eq_none_iff_forall_ne_some.mpr fun found hfound =>
              h items rfl text hmem (Pattern.isDelimited_of_delimited? hfound)
          simp [compileChoice, choiceOfString, hplain]
      | _ => rfl
  | _ => rfl

/-- Among the alternatives of an `$in` or `$nin` in the filter, at any depth,
no string looks like a pattern. -/
def Filter.ListsNoPatterns (f : Filter) : Prop :=
  ∀ key items, .operator key (.array items) ∈ f.pieces → key = "$in" ∨ key = "$nin" →
    ∀ text, .string text ∈ items → ¬Pattern.IsDelimited text

theorem Filter.ListsNoPatterns.indifferent [Pattern.Engine] {f : Filter} (h : f.ListsNoPatterns)
    (ops : Operators) :
    ∀ p ∈ f.pieces, p.Indifferent true ⟨true, ops⟩ ⟨false, ops⟩ := by
  intro p hp
  cases p with
  | constraint v => trivial
  | operator key operand =>
      intro whole
      unfold compilePlainOperator
      split
      case h_7 | h_8 =>
          rw [compileChoices_of_not_delimited fun items hitems => h _ items (hitems ▸ hp) (by simp)]
          exact .refl _
      all_goals exact .refl _

/-! ## Filters -/

/-- A filter that compiles still compiles to the same query when operators are
added, whatever their names; and if no string in its lists looks like a
pattern, then nothing depends on whether such strings are read as patterns, not
even the fault of a filter that does not compile. -/
theorem Filter.compile_settings [Pattern.Engine] (f : Filter) :
    (∀ patterns ops more, Operators.Extends more ops → ∀ q,
      f.compile ⟨patterns, ops⟩ = .ok q → f.compile ⟨patterns, more⟩ = .ok q) ∧
    (f.ListsNoPatterns → ∀ ops, f.compile ⟨true, ops⟩ = f.compile ⟨false, ops⟩) := by
  constructor
  · intro patterns ops more hmore q hq
    exact (stays_compileConditions f fun p _ => Piece.indifferent_of_extends hmore patterns p).ok hq
  · intro hlists ops
    exact (stays_compileConditions f (hlists.indifferent ops)).eq

/-- A test of the caller's inside `$elemMatch`, beside a list with a slash in
it. Another test goes by the name `$gt`, where it is never asked. -/
theorem Filter.compile_settings_elements :
    let near : CustomTest := fun v _ => v.isSome
    let never : CustomTest := fun _ _ => false
    let f : Filter := [("tags", .value (.document [("$elemMatch", .document [
      ("$near", .int32 3), ("$gt", .int32 0), ("$nin", .array [.string "a/b"])])]))]
    ∃ q, f.compile ⟨true, [("$near", near)]⟩ = .ok q ∧
      f.compile ⟨true, Operators.insert [("$near", near)] "$gt" never⟩ = .ok q ∧
      f.compile ⟨false, [("$near", near)]⟩ = .ok q := by
  intro near never f
  have hnew : Operators.get? [("$near", near)] "$gt" = none := rfl
  have hlists : f.ListsNoPatterns := by
    intro key items hpiece _ text htext
    have hpieces : f.pieces = [.constraint (.document [("$elemMatch", .document [
        ("$near", .int32 3), ("$gt", .int32 0), ("$nin", .array [.string "a/b"])])]),
      .operator "$elemMatch" (.document [
        ("$near", .int32 3), ("$gt", .int32 0), ("$nin", .array [.string "a/b"])]),
      .operator "$near" (.int32 3), .operator "$gt" (.int32 0),
      .operator "$nin" (.array [.string "a/b"])] := rfl
    rw [hpieces] at hpiece
    simp at hpiece
    obtain ⟨rfl, rfl⟩ := hpiece
    obtain rfl : text = "a/b" := by simpa using htext
    rintro ⟨pattern, flags, htext, -⟩
    simpa using congrArg (fun s : String => s.toList.head?) htext
  refine ⟨_, rfl, ?_, ?_⟩
  · exact (Filter.compile_settings f).1 true _ _ (Operators.extends_insert hnew never) _ rfl
  · exact ((Filter.compile_settings f).2 hlists _).symm

end DocStore
