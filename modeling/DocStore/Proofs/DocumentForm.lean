import DocStore.Proofs.Acceptance
import DocStore.Proofs.Pieces

/-!
# The document form of a filter

A filter has a document form exactly if it is free of tests
(`isOk_documentFields`), and the document form of a filter that compiles
compiles too. To the same query, if no group of filters stands under a number
(`Filter.compile_document_form`): a group becomes an array of documents, which
under `$and`, `$or` and `$nor` is a list of filters as well.

Under a number it is not. There an array is a literal, and the document form
asks for a field with that array in it (`Filter.document_form_of_numbered`).
-/

namespace DocStore

/-! ## Which filters have a document form -/

mutual

theorem isOk_toValue (key : String) : ∀ c : Condition, (c.toValue key).isOk = c.isTestFree
  | .value v => rfl
  | .predicate p => rfl
  | .matcher m => rfl
  | .filters members => by
      rw [Condition.toValue, isOk_map, isOk_memberDocuments members, Condition.isTestFree]
termination_by structural c => c

theorem isOk_memberDocuments :
    ∀ fs : List (List (String × Condition)), (memberDocuments fs).isOk = membersTestFree fs
  | [] => rfl
  | f :: rest => by
      rw [memberDocuments, membersTestFree, ← isOk_documentFields f, ← isOk_memberDocuments rest]
      exact isOk_bind_bind_pure ..
termination_by structural fs => fs

theorem isOk_documentFields :
    ∀ f : List (String × Condition), (documentFields f).isOk = conditionsTestFree f
  | [] => rfl
  | (key, c) :: rest => by
      rw [documentFields, conditionsTestFree, ← isOk_toValue key c, ← isOk_documentFields rest]
      exact isOk_bind_bind_pure ..
termination_by structural f => f

end

/-! ## Groups under a number -/

mutual

/-- Under the key, the condition is no group if the key is a number; nor is
there such a group inside. -/
def Condition.numbersNoGroup (key : String) : Condition → Bool
  | .filters members => !isNumericKey key && membersNumberNoGroup members
  | _ => true

def membersNumberNoGroup : List (List (String × Condition)) → Bool
  | [] => true
  | f :: rest => conditionsNumberNoGroup f && membersNumberNoGroup rest

def conditionsNumberNoGroup : List (String × Condition) → Bool
  | [] => true
  | (key, c) :: rest => c.numbersNoGroup key && conditionsNumberNoGroup rest

end

/-- No group of filters stands under a number, at any depth. A document may. -/
def Filter.numbersNoGroup (f : Filter) : Bool := conditionsNumberNoGroup f

/-! ## The document form compiled -/

theorem compileConditions_ofDocument [Pattern.Engine] (settings : Settings) (d : Document) :
    compileConditions settings (Filter.ofDocument d) = compileClauses settings d := by
  induction d with
  | nil => rfl
  | cons field rest ih =>
      rw [compileClauses, ← ih]
      rfl

theorem isEmpty_of_memberDocuments {fs : List (List (String × Condition))} {items : List Value}
    (h : memberDocuments fs = .ok items) : items.isEmpty = fs.isEmpty := by
  cases fs with
  | nil => exact Except.ok.inj h ▸ rfl
  | cons f rest =>
      obtain ⟨fields, -, h⟩ := bind_eq_ok_iff.mp h
      obtain ⟨more, -, h⟩ := bind_eq_ok_iff.mp h
      exact Except.ok.inj h ▸ rfl

/-- An array under a number is a literal. -/
theorem compileClause_numbered [Pattern.Engine] {key : String} (h : keyRole key = .numeric)
    (settings : Settings) (items : List Value) :
    compileClause settings key (.array items) = .ok (.field key (.literal (.array items))) := by
  unfold compileClause fieldClause
  rw [h]
  rfl

theorem isNumericKey_of_keyRole {key : String} (h : keyRole key = .numeric) :
    isNumericKey key = true := by
  rcases keyRole_cases key with ⟨rfl, hrole⟩ | ⟨rfl, hrole⟩ | ⟨rfl, hrole⟩ | ⟨rfl, hrole⟩ |
    ⟨-, hrole | ⟨hnumeric, -⟩ | ⟨-, hrole⟩⟩
  case inr.inr.inr.inr.inr.inl => exact hnumeric
  all_goals cases h.symm.trans hrole

section Compiled

variable [Pattern.Engine] {settings : Settings}

/-- A group and the array of its documents, given that the members compile
alike. Under a name that is neither for lists nor a number no group compiles,
unless the name says nothing of its value. -/
theorem compile_array_of_group {key : String} {fs : List (List (String × Condition))}
    {items : List Value} {clause : Clause} (hempty : items.isEmpty = fs.isEmpty)
    (h : compileCondition settings key (.filters fs) = .ok clause)
    (hmembers : ∀ queries, compileGroup settings fs = .ok queries →
      ∃ r, compileMembers settings key items = .ok r ∧
        (membersNumberNoGroup fs = true → r = queries)) :
    ∃ r, compileClause settings key (.array items) = .ok r ∧
      ((Condition.filters fs).numbersNoGroup key = true → r = clause) := by
  rw [Condition.numbersNoGroup]
  unfold compileCondition at h
  split at h
  · rename_i j hrole
    split at h
    · cases h
    · rename_i hne
      obtain ⟨queries, hqueries, rfl⟩ := map_eq_ok_iff.mp h
      obtain ⟨same, hsame, heq⟩ := hmembers queries hqueries
      rw [← hempty] at hne
      refine ⟨j.clause same, ?_, fun hgroups => ?_⟩
      · rw [compileClause, hrole]
        simp only [hne, hsame]
        rfl
      · rw [Bool.and_eq_true] at hgroups
        rw [heq hgroups.2]
  · rename_i hrole
    refine ⟨_, compileClause_numbered hrole settings items, fun hgroups => ?_⟩
    rw [isNumericKey_of_keyRole hrole] at hgroups
    cases hgroups
  · unfold fieldClause at h
    split at h
    case h_2 hrole =>
        refine ⟨.isolated, ?_, fun _ => Except.ok.inj h⟩
        unfold compileClause fieldClause
        rw [hrole]
    all_goals cases h

mutual

theorem compile_documentFields :
    ∀ (f : List (String × Condition)) {d : Document} {q : Query}, documentFields f = .ok d →
      compileConditions settings f = .ok q →
        ∃ r, compileClauses settings d = .ok r ∧ (conditionsNumberNoGroup f = true → r = q)
  | [], _, _, hd, hq => by
      obtain rfl := Except.ok.inj hd
      exact ⟨_, hq, fun _ => rfl⟩
  | (key, c) :: rest, _, _, hd, hq => by
      obtain ⟨v, hv, hd⟩ := bind_eq_ok_iff.mp hd
      obtain ⟨more, hmore, hd⟩ := bind_eq_ok_iff.mp hd
      obtain rfl := Except.ok.inj hd
      obtain ⟨clause, hclause, hq⟩ := bind_eq_ok_iff.mp hq
      obtain ⟨clauses, hclauses, hq⟩ := bind_eq_ok_iff.mp hq
      obtain rfl := Except.ok.inj hq
      obtain ⟨first, hfirst, hsame⟩ := compile_toValue c hv hclause
      obtain ⟨others, hothers, hothersSame⟩ := compile_documentFields rest hmore hclauses
      refine ⟨first :: others, ?_, fun hgroups => ?_⟩
      · rw [compileClauses, hfirst, ok_bind, hothers]
        rfl
      · rw [conditionsNumberNoGroup, Bool.and_eq_true] at hgroups
        rw [hsame hgroups.1, hothersSame hgroups.2]
termination_by structural f => f

theorem compile_toValue {key : String} :
    ∀ (c : Condition) {v : Value} {clause : Clause}, c.toValue key = .ok v →
      compileCondition settings key c = .ok clause →
        ∃ r, compileClause settings key v = .ok r ∧ (c.numbersNoGroup key = true → r = clause)
  | c, _, _, hv, hclause => by
      cases c with
      | value v =>
          obtain rfl := Except.ok.inj hv
          exact ⟨_, hclause, fun _ => rfl⟩
      | predicate p | matcher m => cases hv
      | filters fs =>
          obtain ⟨items, hitems, rfl⟩ := map_eq_ok_iff.mp hv
          refine compile_array_of_group (isEmpty_of_memberDocuments hitems) hclause ?_
          exact fun _ hqueries => compile_memberDocuments fs key hitems hqueries
termination_by structural c => c

theorem compile_memberDocuments :
    ∀ (fs : List (List (String × Condition))) (key : String) {items : List Value}
      {queries : List Query}, memberDocuments fs = .ok items →
        compileGroup settings fs = .ok queries →
        ∃ r, compileMembers settings key items = .ok r ∧
          (membersNumberNoGroup fs = true → r = queries)
  | [], _, _, _, hitems, hqueries => by
      obtain rfl := Except.ok.inj hitems
      exact ⟨_, hqueries, fun _ => rfl⟩
  | f :: rest, key, _, _, hitems, hqueries => by
      obtain ⟨d, hd, hitems⟩ := bind_eq_ok_iff.mp hitems
      obtain ⟨more, hmore, hitems⟩ := bind_eq_ok_iff.mp hitems
      obtain rfl := Except.ok.inj hitems
      obtain ⟨q, hq, hqueries⟩ := bind_eq_ok_iff.mp hqueries
      obtain ⟨others, hothers, hqueries⟩ := bind_eq_ok_iff.mp hqueries
      obtain rfl := Except.ok.inj hqueries
      obtain ⟨first, hfirst, hsame⟩ := compile_documentFields f hd hq
      obtain ⟨following, hfollowing, hfollowingSame⟩ :=
        compile_memberDocuments rest key hmore hothers
      refine ⟨first :: following, ?_, fun hgroups => ?_⟩
      · rw [compileMembers, hfirst, ok_bind, hfollowing]
        rfl
      · rw [membersNumberNoGroup, Bool.and_eq_true] at hgroups
        rw [hsame hgroups.1, hfollowingSame hgroups.2]
termination_by structural fs => fs

end

end Compiled

/-- A filter that compiles and is free of tests has a document form, and that
compiles under the same settings. Unless a group stands under a number, it
compiles to the same query. -/
theorem Filter.compile_document_form [Pattern.Engine] (settings : Settings) {f : Filter} {q : Query}
    (hfree : f.isTestFree = true) (hq : f.compile settings = .ok q) :
    ∃ d r, f.toDocument = .ok d ∧ (Filter.ofDocument d).compile settings = .ok r ∧
      (f.numbersNoGroup = true → r = q) := by
  have hform : (documentFields f).isOk = true := (isOk_documentFields f).trans hfree
  obtain ⟨d, hd⟩ := isOk_iff.mp hform
  obtain ⟨r, hr, hsame⟩ := compile_documentFields f hd hq
  exact ⟨d, r, hd, (compileConditions_ofDocument settings d).trans hr, hsame⟩

/-- Either of two filters, one of which has a group of its own, beside a
document under a number. -/
theorem Filter.compile_document_form_of_groups :
    let f : Filter := [
      ("$or", .filters [
        [("a", .value (.int32 1))],
        [("$nor", .filters [[("b", .value (.document [("$gt", .int32 2)]))]])]]),
      ("0", .value (.document [("c", .string "x")]))]
    ∃ q d r, f.compile .default = .ok q ∧ f.toDocument = .ok d ∧
      (Filter.ofDocument d).compile .default = .ok r ∧ r = q := by
  intro f
  obtain ⟨d, r, hd, hr, hsame⟩ :=
    Filter.compile_document_form .default (f := f) (by decide) rfl
  exact ⟨_, d, r, rfl, hd, hr, hsame (by decide)⟩

/-- A group under a number compiles, and so does its document form. But of a
document in which the group is true the form is not: it asks for a field with
the number for a name. -/
theorem Filter.document_form_of_numbered :
    let f : Filter := [("0", .filters [[("a", .value (.int32 1))]])]
    ∃ q d r, f.isTestFree = true ∧ f.compile .default = .ok q ∧ f.toDocument = .ok d ∧
      (Filter.ofDocument d).compile .default = .ok r ∧
      q.holds [("a", .int32 1)] = true ∧ r.holds [("a", .int32 1)] = false := by
  intro f
  exact ⟨_, _, _, by decide, rfl, rfl, rfl, rfl, rfl⟩

end DocStore
