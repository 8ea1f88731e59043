import ApiSuite.Proofs.Except
import ApiSuite.Proofs.Parts
import ApiSuite.Proofs.Suite.Document

/-!
# What has a JSON form

A value has a JSON form if the keys of all mappings in it can be written as member names, and a suite
has one if the settings and the expected values in it have.
-/

namespace ApiSuite

variable {ε α β : Type}

theorem exists_map_eq_ok_iff {x : Except ε α} {f : α → β} :
    (∃ b, f <$> x = .ok b) ↔ ∃ a, x = .ok a := by
  simp [map_eq_ok_iff]

namespace Value

variable {key value : Value} {entries : Entries} {items : List Value}

/-- The keys that become names of members: strings, whole numbers, booleans and finite numbers, all
of them untagged. -/
def IsMemberName : Value → Prop
  | .str _ | .int _ | .bool _ => True
  | .float x => x.isFinite = true
  | _ => False

/-- All keys of the mappings in the value can become names of members. -/
def HasJsonForm (value : Value) : Prop :=
  value.EachMapping id fun entries => ∀ entry ∈ entries, entry.1.IsMemberName

theorem exists_jsonKey_eq_ok_iff : (∃ name, key.jsonKey = .ok name) ↔ key.IsMemberName := by
  cases key with
  | float x =>
      rw [jsonKey, IsMemberName]
      split <;> simp_all
  | _ => simp [jsonKey, IsMemberName]

theorem exists_itemsToJson_eq_ok_iff :
    (∃ json, itemsToJson items = .ok json) ↔ ∀ item ∈ items, ∃ json, item.toJson = .ok json := by
  induction items with
  | nil => simp [itemsToJson]
  | cons item items ih =>
      rw [List.forall_mem_cons, ← ih]
      constructor
      · rintro ⟨json, h⟩
        obtain ⟨first, hfirst, h⟩ := bind_eq_ok_iff.mp h
        obtain ⟨rest, hrest, -⟩ := bind_eq_ok_iff.mp h
        exact ⟨⟨first, hfirst⟩, rest, hrest⟩
      · rintro ⟨⟨first, hfirst⟩, rest, hrest⟩
        exact ⟨_, bind_eq_ok_iff.mpr ⟨first, hfirst, bind_eq_ok_iff.mpr ⟨rest, hrest, rfl⟩⟩⟩

theorem exists_entriesToJson_eq_ok_iff :
    (∃ json, entriesToJson entries = .ok json) ↔
      ∀ entry ∈ entries, entry.1.IsMemberName ∧ ∃ json, entry.2.toJson = .ok json := by
  induction entries with
  | nil => simp [entriesToJson]
  | cons entry entries ih =>
      obtain ⟨key, value⟩ := entry
      rw [List.forall_mem_cons, ← ih, ← exists_jsonKey_eq_ok_iff]
      constructor
      · rintro ⟨json, h⟩
        obtain ⟨name, hname, h⟩ := bind_eq_ok_iff.mp h
        obtain ⟨first, hfirst, h⟩ := bind_eq_ok_iff.mp h
        obtain ⟨rest, hrest, -⟩ := bind_eq_ok_iff.mp h
        exact ⟨⟨⟨name, hname⟩, first, hfirst⟩, rest, hrest⟩
      · rintro ⟨⟨⟨name, hname⟩, first, hfirst⟩, rest, hrest⟩
        exact ⟨_, bind_eq_ok_iff.mpr ⟨name, hname, bind_eq_ok_iff.mpr ⟨first, hfirst,
          bind_eq_ok_iff.mpr ⟨rest, hrest, rfl⟩⟩⟩⟩

theorem exists_toJson_eq_ok_iff : (∃ json, value.toJson = .ok json) ↔ value.HasJsonForm := by
  induction hsize : sizeOf value using Nat.strongRecOn generalizing value with
  | ind size ih =>
  subst hsize
  cases value with
  | seq items =>
      rw [toJson, exists_map_eq_ok_iff, exists_itemsToJson_eq_ok_iff, HasJsonForm,
        eachMapping_seq_iff]
      exact forall₂_congr fun item hitem => ih _ (sizeOf_lt_seq hitem) rfl
  | map entries =>
      rw [toJson, exists_map_eq_ok_iff, exists_entriesToJson_eq_ok_iff, HasJsonForm,
        eachMapping_map_iff, id, ← forall₂_and]
      exact forall₂_congr fun entry hentry => and_congr_right fun _ => ih _ (sizeOf_lt_map hentry) rfl
  | tagged tag content =>
      have hcontent : (∃ json, (tagged tag content).toJson = .ok json) ↔
          ∃ json, content.toJson = .ok json := by
        simp only [toJson, bind_eq_ok_iff]
        constructor
        · rintro ⟨json, inner, hinner, -⟩
          exact ⟨inner, hinner⟩
        · rintro ⟨inner, hinner⟩
          exact ⟨_, inner, hinner, rfl⟩
      rw [hcontent, HasJsonForm, eachMapping_tagged_iff]
      exact ih _ (sizeOf_lt_tagged tag content) rfl
  | _ =>
      constructor
      · rintro - entries ⟨⟩
      · exact fun _ => by simp [toJson]

/-- A property that a value without tags has if all its parts have it, and only then. -/
structure Hereditary (property : Value → Prop) : Prop where
  seq_iff (items : List Value) : property (.seq items) ↔ ∀ item ∈ items, property item
  ofFields_iff (fields : List (String × Value)) :
    property (.ofFields fields) ↔ ∀ field ∈ fields, property field.2
  str (s : String) : property (.str s)
  int (n : Int) : property (.int n)

theorem hereditary_hasJsonForm : Hereditary HasJsonForm where
  seq_iff items := eachMapping_seq_iff
  ofFields_iff fields := by
    have hkeys : ∀ entry ∈ Entries.ofFields fields, entry.1.IsMemberName := by
      intro entry hentry
      obtain ⟨field, -, rfl⟩ := List.mem_map.mp hentry
      trivial
    rw [ofFields, HasJsonForm, eachMapping_map_iff, and_iff_right hkeys, id, Entries.ofFields,
      List.forall_mem_map]
    rfl
  str s _ hentries := nomatch hentries
  int n _ hentries := nomatch hentries

end Value

/-! ### Suites -/

def Assertion.expectedValue? : Assertion → Option Value
  | .jsonPath _ expected => some expected
  | _ => none

def Step.values (step : Step) : List Value :=
  step.config.entries.map (·.2) ++ step.assertions.filterMap (·.expectedValue?)

def Suite.values (suite : Suite) : List Value :=
  suite.tests.flatMap fun test => test.steps.flatMap Step.values

/-- All values in the suite have a JSON form. -/
def Suite.HasJsonForm (suite : Suite) : Prop :=
  ∀ value ∈ suite.values, value.HasJsonForm

section Hereditary

open Value (Hereditary)

variable {property : Value → Prop} (h : Hereditary property)

include h

theorem Assertion.hereditary_toValue_iff {assertion : Assertion} :
    property assertion.toValue ↔
      ∀ value, assertion.expectedValue? = some value → property value := by
  rw [toValue, h.ofFields_iff]
  cases assertion <;> simp [payload, expectedValue?, h.str, h.int]

theorem Capture.hereditary_toValue (capture : Capture) : property capture.toValue := by
  rw [toValue, h.ofFields_iff]
  simp [h.str]

theorem Step.hereditary_toValue_iff {step : Step} :
    property step.toValue ↔ ∀ value ∈ step.values, property value := by
  have hassertions : property (.seq (step.assertions.map (·.toValue))) ↔
      ∀ value ∈ step.assertions.filterMap (·.expectedValue?), property value := by
    rw [h.seq_iff, List.forall_mem_map]
    simp only [Assertion.hereditary_toValue_iff h, List.mem_filterMap]
    exact ⟨fun hall value ⟨assertion, hmem, hvalue⟩ => hall assertion hmem value hvalue,
      fun hall assertion hmem value hvalue => hall value ⟨assertion, hmem, hvalue⟩⟩
  have hcaptures : property (.seq (step.captures.map (·.toValue))) := by
    rw [h.seq_iff, List.forall_mem_map]
    exact fun capture _ => capture.hereditary_toValue h
  have hconfig : property step.config.toValue ↔
      ∀ value ∈ step.config.entries.map (·.2), property value := by
    rw [Config.toValue, h.ofFields_iff, List.forall_mem_map]
  rw [toValue, h.ofFields_iff, values, List.forall_mem_append, ← hconfig, ← hassertions]
  simp [h.str, hcaptures]

theorem hereditary_headingFields (name : String) (description : Option String) :
    ∀ field ∈ headingFields name description, property field.2 := by
  cases description <;> simp [headingFields, h.str]

theorem Test.hereditary_toValue_iff {test : Test} :
    property test.toValue ↔ ∀ step ∈ test.steps, property step.toValue := by
  rw [toValue, h.ofFields_iff, List.forall_mem_append,
    and_iff_right (hereditary_headingFields h _ _), List.forall_mem_singleton, h.seq_iff,
    List.forall_mem_map]

theorem Suite.hereditary_toValue_iff {suite : Suite} :
    property suite.toValue ↔ ∀ value ∈ suite.values, property value := by
  rw [toValue, h.ofFields_iff, List.forall_mem_append,
    and_iff_right (hereditary_headingFields h _ _), List.forall_mem_singleton, h.seq_iff,
    List.forall_mem_map]
  simp only [Test.hereditary_toValue_iff h, Step.hereditary_toValue_iff h]
  constructor
  · intro hall value hvalue
    obtain ⟨test, htest, hvalue⟩ := List.mem_flatMap.mp hvalue
    obtain ⟨step, hstep, hvalue⟩ := List.mem_flatMap.mp hvalue
    exact hall test htest step hstep value hvalue
  · intro hall test htest step hstep value hvalue
    exact hall value (List.mem_flatMap.mpr ⟨test, htest, List.mem_flatMap.mpr ⟨step, hstep, hvalue⟩⟩)

end Hereditary

theorem Suite.hasJsonForm_toValue_iff {suite : Suite} :
    suite.toValue.HasJsonForm ↔ suite.HasJsonForm :=
  hereditary_toValue_iff Value.hereditary_hasJsonForm

theorem Suite.exists_dump_eq_ok_iff {suite : Suite} :
    (∃ text, suite.dump = .ok text) ↔ suite.HasJsonForm := by
  rw [dump, exists_map_eq_ok_iff, ← toJson_toValue, Value.exists_toJson_eq_ok_iff,
    hasJsonForm_toValue_iff]

end ApiSuite
