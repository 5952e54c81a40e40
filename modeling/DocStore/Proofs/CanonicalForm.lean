import DocStore.Cursor
import DocStore.Proofs.Equality
import Std.Data.String.ToInt

/-!
# The canonical form keeps kinds

In the canonical form an integer is an object with a tag for its width, and a
document is an object as well. They cannot be taken for one another, since a tag
starts with a dollar sign and no key of an untagged value does
(`Value.Untagged`). So two untagged values have the same canonical form just if
they are the same: of the same kinds and widths at every depth, in any order of
keys (`Value.same_canonicalJson_iff`).

A result in JSON has its own fields in the plain form, which forgets widths. What
is embedded is in the canonical form, unless a shape asks for more. So results
that differ inside an embedded document or array never come out as the same
(`Value.canonical_form_faithful`).
-/

namespace DocStore

/-! ## Equality of JSON values -/

mutual

/-- The same kind and content, where objects are compared by key and not by
order. -/
def Json.same : Json → Json → Bool
  | .null, .null => true
  | .boolean a, .boolean b => a == b
  | .integer m, .integer n => m == n
  | .number a, .number b => a.numEq b
  | .string a, .string b => a == b
  | .array xs, .array ys => sameJsonItems xs ys
  | .object xs, .object ys => xs.length == ys.length && sameJsonFields xs ys
  | _, _ => false

def sameJsonItems : List Json → List Json → Bool
  | [], [] => true
  | x :: xs, y :: ys => x.same y && sameJsonItems xs ys
  | _, _ => false

/-- Every field of the first has its like in the second. -/
def sameJsonFields : List (String × Json) → List (String × Json) → Bool
  | [], _ => true
  | (key, x) :: xs, ys =>
      (match ys.lookup key with
        | some y => x.same y
        | none => false) && sameJsonFields xs ys

end

theorem sameJsonItems_iff {xs ys : List Json} :
    sameJsonItems xs ys = true ↔ List.Forall₂ (fun x y => x.same y = true) xs ys := by
  induction xs generalizing ys with
  | nil => cases ys <;> simp [sameJsonItems]
  | cons x xs ih => cases ys <;> simp [sameJsonItems, ih]

theorem sameJsonFields_iff {xs ys : List (String × Json)} :
    sameJsonFields xs ys = true ↔
      ∀ field ∈ xs, ∃ y, ys.lookup field.1 = some y ∧ field.2.same y = true := by
  induction xs with
  | nil => simp [sameJsonFields]
  | cons field rest ih =>
      rw [sameJsonFields, Bool.and_eq_true, ih, List.forall_mem_cons]
      cases ys.lookup field.1 <;> simp

/-! ## Fields in some form -/

/-- An object with the fields of a document, each in the form `render`. -/
def Document.rendered (render : Value → Json) (d : Document) : Json :=
  .object (d.map fun field => (field.1, render field.2))

section Rendered

variable {render : Value → Json} {d e : Document} {tag : String} {content : Json}

theorem Document.lookup_rendered (render : Value → Json) (d : Document) (key : String) :
    (d.map fun field => (field.1, render field.2)).lookup key = (d.get? key).map render := by
  induction d with
  | nil => rfl
  | cons field rest ih =>
      obtain ⟨k, v⟩ := field
      rw [Document.get?_cons, List.map_cons, List.lookup_cons, ih]
      cases hkey : key == k with
      | true => simp [beq_iff_eq.mp hkey]
      | false => simp [beq_eq_false_iff_ne.mp hkey]

theorem Document.same_rendered_iff :
    (d.rendered render).same (e.rendered render) = true ↔
      d.length = e.length ∧
        ∀ field ∈ d, ∃ w, e.get? field.1 = some w ∧ (render field.2).same (render w) = true := by
  rw [rendered, rendered, Json.same, Bool.and_eq_true, beq_iff_eq, List.length_map, List.length_map,
    sameJsonFields_iff, List.forall_mem_map]
  simp only [lookup_rendered, Option.map_eq_some_iff, exists_exists_and_eq_and]

theorem lookup_singleton_eq_some_iff {key other : String} {j : Json} :
    [(other, content)].lookup key = some j ↔ key = other ∧ content = j := by
  rw [List.lookup_cons]
  cases hkey : key == other with
  | true => simp [beq_iff_eq.mp hkey]
  | false => simp [beq_eq_false_iff_ne.mp hkey]

theorem Json.same_tagged_iff {other : String} {content' : Json} :
    (tagged tag content).same (tagged other content') = true ↔
      tag = other ∧ content.same content' = true := by
  rw [tagged, tagged, same, Bool.and_eq_true, sameJsonFields_iff, List.forall_mem_singleton]
  simp [lookup_singleton_eq_some_iff, and_assoc]

/-- A tag is no key of the document. -/
theorem Document.not_same_tagged (htag : isOperatorKey tag = true)
    (hkeys : ∀ key ∈ d.keys, isOperatorKey key = false) :
    (Json.tagged tag content).same (d.rendered render) = false := by
  refine Bool.eq_false_iff.mpr fun h => ?_
  rw [Json.tagged, rendered, Json.same, Bool.and_eq_true, sameJsonFields_iff,
    List.forall_mem_singleton, lookup_rendered] at h
  obtain ⟨-, j, hj, -⟩ := h
  obtain ⟨v, hv, -⟩ := Option.map_eq_some_iff.mp hj
  exact Bool.false_ne_true ((hkeys tag (mem_keys_iff.mpr ⟨v, hv⟩)).symm.trans htag)

theorem Document.not_tagged_same (htag : isOperatorKey tag = true)
    (hkeys : ∀ key ∈ d.keys, isOperatorKey key = false) :
    (d.rendered render).same (Json.tagged tag content) = false := by
  refine Bool.eq_false_iff.mpr fun h => ?_
  rw [Json.tagged, rendered, Json.same, Bool.and_eq_true, sameJsonFields_iff,
    List.forall_mem_map, beq_iff_eq] at h
  obtain ⟨hlength, hfields⟩ := h
  cases d with
  | nil => cases hlength
  | cons field rest =>
      obtain ⟨j, hj, -⟩ := hfields field (List.mem_cons_self ..)
      have hkey : field.1 = tag := (lookup_singleton_eq_some_iff.mp hj).1
      exact Bool.false_ne_true ((hkeys tag (hkey ▸ List.mem_cons_self ..)).symm.trans htag)

end Rendered

/-! ## The canonical form -/

/-- The value is made of integers, strings, truth values and nulls, and no key in
it looks like a tag. -/
inductive Value.Untagged : Value → Prop where
  | null : Untagged .null
  | boolean (b : Bool) : Untagged (.boolean b)
  | int32 (n : Int32) : Untagged (.int32 n)
  | int64 (n : Int64) : Untagged (.int64 n)
  | string (s : String) : Untagged (.string s)
  | array {items : List Value} (h : ∀ v ∈ items, Value.Untagged v) : Untagged (.array items)
  | document {fields : List (String × Value)}
      (hkeys : ∀ key ∈ Document.keys fields, Document.isOperatorKey key = false)
      (h : ∀ v ∈ fields.map (·.2), Value.Untagged v) : Untagged (.document fields)

theorem canonicalItems_eq (items : List Value) :
    canonicalItems items = items.map Value.canonicalJson := by
  induction items with
  | nil => rfl
  | cons v rest ih => rw [canonicalItems, ih, List.map_cons]

theorem canonicalFields_eq (fields : List (String × Value)) :
    canonicalFields fields = fields.map fun field => (field.1, field.2.canonicalJson) := by
  induction fields with
  | nil => rfl
  | cons field rest ih => rw [canonicalFields, ih, List.map_cons]

theorem Value.canonicalJson_document (d : Document) :
    (Value.document d).canonicalJson = d.rendered canonicalJson := by
  rw [canonicalJson, canonicalFields_eq, Document.rendered]

theorem Value.canonicalJson_array (items : List Value) :
    (Value.array items).canonicalJson = .array (items.map canonicalJson) := by
  rw [canonicalJson, canonicalItems_eq]

/-- Untagged values have the same canonical form just if they are the same. -/
theorem Value.same_canonicalJson_iff {a b : Value} (ha : a.Untagged) (hb : b.Untagged) :
    a.canonicalJson.same b.canonicalJson = true ↔ a.same b = true := by
  have hint : Document.isOperatorKey "$numberInt" = true := by decide
  have hlong : Document.isOperatorKey "$numberLong" = true := by decide
  induction ha generalizing b with
  | null => cases hb <;> exact Iff.rfl
  | boolean x => cases hb <;> exact Iff.rfl
  | string s => cases hb <;> exact Iff.rfl
  | int32 m =>
      cases hb with
      | int32 n =>
          rw [canonicalJson, canonicalJson, Json.same_tagged_iff, Json.same, same]
          simp [Int.repr_inj, Int32.toInt_inj]
      | document hkeys _ =>
          rw [canonicalJson_document, canonicalJson, Document.not_same_tagged hint hkeys]
          exact Iff.rfl
      | _ => exact Iff.rfl
  | int64 m =>
      cases hb with
      | int64 n =>
          rw [canonicalJson, canonicalJson, Json.same_tagged_iff, Json.same, same]
          simp [Int.repr_inj, Int64.toInt_inj]
      | document hkeys _ =>
          rw [canonicalJson_document, canonicalJson, Document.not_same_tagged hlong hkeys]
          exact Iff.rfl
      | _ => exact Iff.rfl
  | @array items h ih =>
      cases hb with
      | @array others hothers =>
          rw [canonicalJson_array, canonicalJson_array, Json.same, sameJsonItems_iff, same,
            sameItems_iff, List.forall₂_map_left_iff, List.forall₂_map_right_iff,
            List.forall₂_iff_get, List.forall₂_iff_get]
          refine and_congr_right fun _ => forall₃_congr fun i hi hj => ?_
          exact ih _ (List.get_mem ..) (hothers _ (List.get_mem ..))
      | _ => exact Iff.rfl
  | @document fields hkeys h ih =>
      cases hb with
      | int32 n =>
          rw [canonicalJson_document, canonicalJson, Document.not_tagged_same hint hkeys]
          exact Iff.rfl
      | int64 n =>
          rw [canonicalJson_document, canonicalJson, Document.not_tagged_same hlong hkeys]
          exact Iff.rfl
      | @document others hotherkeys hothers =>
          rw [canonicalJson_document, canonicalJson_document, Document.same_rendered_iff, same,
            Bool.and_eq_true, beq_iff_eq, sameFields_iff]
          refine and_congr_right fun _ => forall₂_congr fun field hfield =>
            exists_congr fun w => and_congr_right fun hget => ?_
          exact ih field.2 (List.mem_map_of_mem hfield)
            (hothers w (Document.mem_values_of_get? hget))
      | _ => exact Iff.rfl

/-! ## Results in JSON -/

namespace TypeMap

/-- Results are JSON, and what is embedded in them is left as it is. -/
def KeepsEmbedded (m : TypeMap) : Prop :=
  m.rootShape = .json ∧ m.documentShape = .bson ∧ m.arrayShape = .bson

end TypeMap

def Value.isEmbedded (v : Value) : Bool := v.isArray || v.isDocument

/-- Under the key one of the documents has a document or an array, and the other
has nothing there or something that is not the same. -/
structure Document.DiffersWithin (d e : Document) (key : String) : Prop where
  embedded : ∃ v, (d.get? key = some v ∨ e.get? key = some v) ∧ v.isEmbedded = true
  untagged : ∀ v, d.get? key = some v ∨ e.get? key = some v → v.Untagged
  differs : ∀ v w, d.get? key = some v → e.get? key = some w → v.same w = false

section Results

variable {m : TypeMap} {d e : Document} {v w : Value} {key : String}

theorem shapedFields_eq (m : TypeMap) (fields : List (String × Value)) :
    shapedFields m fields = fields.map fun field => (field.1, field.2.json m) := by
  induction fields with
  | nil => rfl
  | cons field rest ih => rw [shapedFields, ih, List.map_cons]

theorem Document.json_eq (m : TypeMap) (d : Document) : d.json m = d.rendered (Value.json m) := by
  rw [json, shapedFields_eq, rendered]

theorem Value.json_of_embedded (hm : m.KeepsEmbedded) (hv : v.isEmbedded = true) :
    v.json m = v.canonicalJson := by
  cases v with
  | array items => rw [json, canonicalJson, hm.2.2, if_neg (by decide)]
  | document fields => rw [json, canonicalJson, hm.2.1, if_neg (by decide)]
  | _ => cases hv

def Json.isContainer : Json → Bool
  | .array _ => true
  | .object _ => true
  | _ => false

theorem Json.isContainer_of_same {x y : Json} (h : x.same y = true) :
    x.isContainer = y.isContainer := by
  revert h
  fun_cases Json.same x y
  case case8 => exact fun h => Bool.noConfusion h
  all_goals exact fun _ => rfl

/-- Integers are tagged where they are embedded only, so a result has a list or
an object just where it has something embedded. -/
theorem Value.isContainer_json (hv : v.Untagged) (m : TypeMap) :
    (v.json m).isContainer = v.isEmbedded := by
  cases hv with
  | array _ | document _ _ =>
      rw [json]
      split <;> rfl
  | _ => rfl

/-- What is embedded keeps its kinds, whatever it is compared with. -/
theorem Value.same_of_same_json (hm : m.KeepsEmbedded) (hv : v.Untagged) (hw : w.Untagged)
    (hembedded : v.isEmbedded = true ∨ w.isEmbedded = true)
    (h : (v.json m).same (w.json m) = true) : v.same w = true := by
  have halike : v.isEmbedded = w.isEmbedded := by
    rw [← isContainer_json hv m, ← isContainer_json hw m]
    exact Json.isContainer_of_same h
  have hboth : v.isEmbedded = true ∧ w.isEmbedded = true := by
    rcases hembedded with hv' | hw'
    · exact ⟨hv', halike.symm.trans hv'⟩
    · exact ⟨halike.trans hw', hw'⟩
  rw [json_of_embedded hm hboth.1, json_of_embedded hm hboth.2] at h
  exact (same_canonicalJson_iff hv hw).mp h

/-- Documents that differ within an embedded value have different JSON forms. -/
theorem Document.not_same_json (hm : m.KeepsEmbedded) (hd : d.WellFormed) (he : e.WellFormed)
    (h : d.DiffersWithin e key) : (d.json m).same (e.json m) = false := by
  refine Bool.eq_false_iff.mpr fun hsame => ?_
  rw [json_eq, json_eq, same_rendered_iff] at hsame
  obtain ⟨hlength, hfields⟩ := hsame
  obtain ⟨v, w, hv, hw, hembedded, hsame⟩ : ∃ v w, d.get? key = some v ∧ e.get? key = some w ∧
      (v.isEmbedded = true ∨ w.isEmbedded = true) ∧ (v.json m).same (w.json m) = true := by
    obtain ⟨x, hx | hx, hembedded⟩ := h.embedded
    · obtain ⟨w, hw, hsame⟩ := hfields (key, x) (mem_of_get?_eq_some hx)
      exact ⟨x, w, hx, hw, Or.inl hembedded, hsame⟩
    · obtain ⟨v, hv, hsame⟩ := paired_swap (R := fun v w => (v.json m).same (w.json m) = true)
        hd.nodup he.nodup hlength hfields (key, x) (mem_of_get?_eq_some hx)
      exact ⟨v, x, hv, hx, Or.inr hembedded, hsame⟩
  have hsame := Value.same_of_same_json hm (h.untagged v (Or.inl hv)) (h.untagged w (Or.inr hw))
    hembedded hsame
  exact Bool.false_ne_true ((h.differs v w hv hw).symm.trans hsame)

theorem Cursor.getElem?_materialize {c : Cursor} (hroot : c.typeMap.rootShape = .json) {i : Nat}
    (hd : c.documents[i]? = some d) : c.materialize[i]? = some (.json (d.json c.typeMap)) := by
  rw [materialize, List.getElem?_map, hd, hroot]
  rfl

end Results

/-- Untagged values have the same canonical form just if they are the same. So
where results are JSON and what is embedded is left as it is, two results that
differ within an embedded document or array come out as different JSON values. -/
theorem Value.canonical_form_faithful :
    (∀ a b : Value, a.Untagged → b.Untagged →
      (a.canonicalJson.same b.canonicalJson = true ↔ a.same b = true)) ∧
    ∀ (m : TypeMap) (results others : List Document), m.KeepsEmbedded →
      ∀ (i j : Nat) (d e : Document) (key : String),
        results[i]? = some d → others[j]? = some e → d.WellFormed → e.WellFormed →
          d.DiffersWithin e key →
            ∃ x y : Json, (Cursor.mk results m).materialize[i]? = some (.json x) ∧
              (Cursor.mk others m).materialize[j]? = some (.json y) ∧ x.same y = false := by
  refine ⟨fun a b => same_canonicalJson_iff, ?_⟩
  intro m results others hm i j d e key hi hj hd he h
  exact ⟨_, _, Cursor.getElem?_materialize hm.1 hi, Cursor.getElem?_materialize hm.1 hj,
    Document.not_same_json hm hd he h⟩

/-- In an embedded array, the two widths of the integer 1 come out differently;
in the fields of the result itself they do not. -/
theorem Value.canonical_form_faithful_widths :
    let d : Document := [("foo", .array [.int32 1]), ("n", .int32 1)]
    let e : Document := [("foo", .array [.int64 1]), ("n", .int64 1)]
    let m : TypeMap := ⟨some .json, none, none⟩
    (Value.array [.int32 1]).canonicalJson.same (Value.array [.int64 1]).canonicalJson = false ∧
      ∃ x y : Json, (Cursor.mk [d] m).materialize[0]? = some (.json x) ∧
        (Cursor.mk [e] m).materialize[0]? = some (.json y) ∧ x.same y = false := by
  intro d e m
  obtain ⟨hcanonical, hresults⟩ := canonical_form_faithful
  have hnarrow : (Value.array [.int32 1]).Untagged :=
    .array (List.forall_mem_singleton.mpr (.int32 1))
  have hwide : (Value.array [.int64 1]).Untagged :=
    .array (List.forall_mem_singleton.mpr (.int64 1))
  have hd : d.get? "foo" = some (.array [.int32 1]) := rfl
  have he : e.get? "foo" = some (.array [.int64 1]) := rfl
  have hdiffers : d.DiffersWithin e "foo" := by
    refine ⟨⟨_, Or.inl hd, rfl⟩, ?_, ?_⟩
    · rintro v (hv | hv)
      · exact Option.some.inj (hd.symm.trans hv) ▸ hnarrow
      · exact Option.some.inj (he.symm.trans hv) ▸ hwide
    · intro v w hv hw
      obtain rfl := Option.some.inj (hd.symm.trans hv)
      obtain rfl := Option.some.inj (he.symm.trans hw)
      rfl
  refine ⟨Bool.eq_false_iff.mpr fun h => ?_, ?_⟩
  · exact Bool.false_ne_true ((hcanonical _ _ hnarrow hwide).mp h)
  · exact hresults m [d] [e] ⟨rfl, rfl, rfl⟩ 0 0 d e "foo" rfl rfl
      ⟨by decide, ⟨trivial, trivial⟩, trivial, trivial⟩
      ⟨by decide, ⟨trivial, trivial⟩, trivial, trivial⟩ hdiffers

end DocStore
