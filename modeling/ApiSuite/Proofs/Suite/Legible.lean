import ApiSuite.Proofs.Json.Legible

/-!
# Suites told by their pages

A suite whose values hold no floating-point number, no tag and no key but strings can be written, and
no other such suite is written the same.
-/

namespace ApiSuite

/-! ### Values -/

mutual

/-- The value that a JSON form without tags is the form of. -/
def Json.value : Json → Value
  | .null => .null
  | .bool b => .bool b
  | .int n => .int n
  | .real x => .float x
  | .str s => .str s
  | .arr items => .seq (Json.itemValues items)
  | .obj members => .ofFields (Json.memberValues members)

def Json.itemValues : List Json → List Value
  | [] => []
  | item :: rest => item.value :: Json.itemValues rest

def Json.memberValues : List (String × Json) → List (String × Value)
  | [] => []
  | (key, value) :: rest => (key, value.value) :: Json.memberValues rest

end

theorem Json.itemValues_eq_map (items : List Json) : itemValues items = items.map value := by
  induction items with
  | nil => rfl
  | cons item items ih => rw [itemValues, ih, List.map_cons]

theorem Json.memberValues_eq_map (members : List (String × Json)) :
    memberValues members = members.map fun member => (member.1, member.2.value) := by
  induction members with
  | nil => rfl
  | cons member members ih => rw [memberValues, ih, List.map_cons]

namespace Value

variable {value : Value} {json : Json} {fields fields' : List (String × Value)}

/-- The value holds no floating-point number and no tag, and all keys in it are strings. -/
inductive IsPlain : Value → Prop
  | null : IsPlain .null
  | bool (b : Bool) : IsPlain (.bool b)
  | int (n : Int) : IsPlain (.int n)
  | str (s : String) : IsPlain (.str s)
  | seq {items : List Value} (h : ∀ item ∈ items, item.IsPlain) : IsPlain (.seq items)
  | map {fields : List (String × Value)} (h : ∀ field ∈ fields, field.2.IsPlain) :
      IsPlain (.ofFields fields)

theorem ofFields_inj : ofFields fields = ofFields fields' ↔ fields = fields' := by
  rw [ofFields, ofFields, map.injEq, Entries.ofFields, Entries.ofFields]
  apply List.map_inj_right
  intro field field' h
  obtain ⟨hname, hvalue⟩ := Prod.mk.inj h
  exact Prod.ext (str.inj hname) hvalue

theorem hereditary_isPlain : Hereditary IsPlain where
  seq_iff items := by
    constructor
    · intro h
      cases h with
      | seq h => exact h
    · exact .seq
  ofFields_iff fields := by
    constructor
    · intro h
      generalize hvalue : ofFields fields = value at h
      cases h with
      | map h => exact ofFields_inj.mp hvalue ▸ h
      | _ => cases hvalue
    · exact .map
  str := .str
  int := .int

theorem toJson_seq (items : List Value) : (seq items).toJson = .arr <$> items.mapM toJson := by
  rw [← toJson_seq_map, List.map_id']

theorem fieldToJson_eq_ok {field : String × Value} (h : field.2.toJson = .ok json) :
    fieldToJson field = .ok (field.1, json) := by
  rw [fieldToJson, h]
  rfl

theorem IsPlain.exists_toJson_eq_ok (h : value.IsPlain) :
    ∃ json, value.toJson = .ok json ∧ json.IsPlain ∧ value = json.value := by
  induction h with
  | null => exact ⟨_, rfl, .null, rfl⟩
  | bool b => exact ⟨_, rfl, .bool b, rfl⟩
  | int n => exact ⟨_, rfl, .int n, rfl⟩
  | str s => exact ⟨_, rfl, .str s, rfl⟩
  | @seq items _ ih =>
      obtain ⟨jsons, hjsons, hplain, hitems⟩ := exists_mapM_eq_ok_of_map ih
      refine ⟨.arr jsons, ?_, .arr hplain, ?_⟩
      · rw [toJson_seq, hjsons]
        rfl
      · rw [Json.value, Json.itemValues_eq_map, ← hitems]
  | @map fields _ ih =>
      have hall : ∀ field ∈ fields, ∃ member, fieldToJson field = .ok member ∧
          member.2.IsPlain ∧ field = (member.1, member.2.value) := by
        intro field hfield
        obtain ⟨json, hjson, hplain, hvalue⟩ := ih field hfield
        exact ⟨(field.1, json), fieldToJson_eq_ok hjson, hplain, Prod.ext rfl hvalue⟩
      obtain ⟨members, hmembers, hplain, hfields⟩ := exists_mapM_eq_ok_of_map hall
      refine ⟨.obj members, ?_, .obj hplain, ?_⟩
      · rw [toJson_ofFields, hmembers]
        rfl
      · rw [Json.value, Json.memberValues_eq_map, ← hfields]

theorem seq_map_inj {α : Type} {toValue : α → Value} {parts parts' : List α}
    (h : Function.Injective toValue) :
    seq (parts.map toValue) = seq (parts'.map toValue) ↔ parts = parts' := by
  rw [seq.injEq, h.list_map.eq_iff]

end Value

/-! ### Suites -/

open Value (ofFields_inj seq_map_inj)

theorem Config.toValue_injective : Function.Injective Config.toValue := by
  intro config config' h
  obtain ⟨entries, _⟩ := config
  obtain ⟨entries', _⟩ := config'
  obtain rfl : entries = entries' := ofFields_inj.mp h
  rfl

theorem Assertion.toValue_injective : Function.Injective Assertion.toValue := by
  intro assertion assertion' h
  rw [toValue, toValue, ofFields_inj] at h
  obtain ⟨hname, hpayload⟩ := List.cons.inj h
  have hkind := AssertionKind.name_injective (Value.str.inj (Prod.mk.inj hname).2)
  cases assertion <;> cases assertion' <;> cases hkind <;>
    simp only [payload, List.cons.injEq, Prod.mk.injEq, Value.str.injEq, Value.int.injEq,
      Int.ofNat_inj, UInt16.toNat_inj, true_and, and_true] at hpayload
  case statusCode => rw [hpayload]
  case jsonPath => rw [hpayload.1, hpayload.2]
  case header => rw [hpayload.1, hpayload.2]
  case bodyContains => rw [hpayload]

theorem Capture.toValue_injective : Function.Injective Capture.toValue := by
  intro capture capture' h
  rw [toValue, toValue, ofFields_inj] at h
  cases capture
  cases capture'
  simpa using h

theorem Step.toValue_injective : Function.Injective Step.toValue := by
  intro step step' h
  rw [toValue, toValue, ofFields_inj] at h
  cases step
  cases step'
  simp only [List.cons.injEq, Prod.mk.injEq, Value.str.injEq, true_and, and_true,
    seq_map_inj Assertion.toValue_injective,
    seq_map_inj Capture.toValue_injective] at h
  obtain ⟨rfl, hplugin, hconfig, rfl, rfl⟩ := h
  rw [Plugin.name_injective hplugin, Config.toValue_injective hconfig]

theorem headingFields_append_inj {name name' key : String} {description description' : Option String}
    {value value' : Value} (hkey : key ≠ "description")
    (h : headingFields name description ++ [(key, value)]
      = headingFields name' description' ++ [(key, value')]) :
    name = name' ∧ description = description' ∧ value = value' := by
  cases description <;> cases description' <;> simp_all [headingFields]

theorem Test.toValue_injective : Function.Injective Test.toValue := by
  intro test test' h
  rw [toValue, toValue, ofFields_inj] at h
  obtain ⟨hname, hdescription, hsteps⟩ := headingFields_append_inj (by decide) h
  cases test
  cases test'
  simp_all [seq_map_inj Step.toValue_injective]

theorem Suite.toValue_injective : Function.Injective Suite.toValue := by
  intro suite suite' h
  rw [toValue, toValue, ofFields_inj] at h
  obtain ⟨hname, hdescription, htests⟩ := headingFields_append_inj (by decide) h
  cases suite
  cases suite'
  simp_all [seq_map_inj Test.toValue_injective]

/-- All values kept in the suite are plain. -/
def Suite.IsPlain (suite : Suite) : Prop :=
  ∀ value ∈ suite.values, value.IsPlain

variable {suite suite' : Suite}

theorem Suite.IsPlain.exists_dump_eq_ok (h : suite.IsPlain) :
    ∃ json : Json, suite.dump = .ok json.page ∧ json.IsPlain ∧ suite.toValue = json.value := by
  have hvalue := (hereditary_toValue_iff Value.hereditary_isPlain).mpr h
  obtain ⟨json, hjson, hplain, hback⟩ := hvalue.exists_toJson_eq_ok
  refine ⟨json, ?_, hplain, hback⟩
  rw [dump, ← toJson_toValue, hjson]
  rfl

/-- Plain suites can be written, and no two of them have the same page. -/
theorem Suite.dump_legible (h : suite.IsPlain) (h' : suite'.IsPlain) :
    ∃ text text', suite.dump = .ok text ∧ suite'.dump = .ok text' ∧
      (text = text' → suite = suite') := by
  obtain ⟨json, hdump, hplain, hback⟩ := h.exists_dump_eq_ok
  obtain ⟨json', hdump', hplain', hback'⟩ := h'.exists_dump_eq_ok
  refine ⟨json.page, json'.page, hdump, hdump', fun htext => ?_⟩
  apply toValue_injective
  rw [hback, hback', Json.page_inj hplain hplain' htext]

def quotingBody : Value :=
  .ofFields [("say \"hi\"", .seq [.null, .int (-1), .str "a\\\n"])]

def quoting (description : Option String) : Suite :=
  let step : Step :=
    ⟨"p", .http, ⟨[("body", quotingBody)], List.pairwise_singleton _ _⟩, [.jsonPath "$" (.bool true)], []⟩
  ⟨"s", description, [⟨"t", none, [step]⟩]⟩

theorem isPlain_quotingBody : quotingBody.IsPlain := by
  rw [quotingBody, Value.hereditary_isPlain.ofFields_iff, List.forall_mem_singleton,
    Value.hereditary_isPlain.seq_iff]
  simp [Value.IsPlain.null, Value.IsPlain.int, Value.IsPlain.str]

theorem isPlain_quoting (description : Option String) : (quoting description).IsPlain := by
  intro value hvalue
  obtain rfl | rfl := List.mem_pair.mp hvalue
  · exact isPlain_quotingBody
  · exact .bool true

/-- A description that is left out is told from an empty one. -/
theorem Suite.dump_legible_quoting :
    ∃ text text', (quoting none).dump = .ok text ∧ (quoting (some "")).dump = .ok text' ∧
      text ≠ text' := by
  obtain ⟨text, text', hdump, hdump', hinj⟩ :=
    Suite.dump_legible (isPlain_quoting none) (isPlain_quoting (some ""))
  refine ⟨text, text', hdump, hdump', fun htext => ?_⟩
  exact absurd (congrArg Suite.description (hinj htext)) nofun

end ApiSuite
