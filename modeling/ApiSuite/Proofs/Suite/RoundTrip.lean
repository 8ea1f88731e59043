import ApiSuite.Proofs.Suite.Document
import ApiSuite.Proofs.Suite.Unique
import ApiSuite.Proofs.Suite.WellFormed

/-!
# Suites and their documents

The document of a suite in normal form is in the grammar and mirrors the suite. So the check accepts
it, and the build gives the suite back, since what is built mirrors the document too and no document
is mirrored by two suites.
-/

namespace ApiSuite

open Schema

variable {α : Type}

/-- Settings that keep the rules of the plugin and are spelled as a build leaves them. -/
structure Step.NormalSettings (step : Step) : Prop where
  rules : step.KeepsRules
  method : step.plugin = .http → ∀ value, step.config.get? "method" = some value →
    value.isNull = false → ∃ s ∈ httpMethods, value = .str s
  duration : step.plugin = .delay →
    ∃ s, step.config.get? "duration" = some (.str s) ∧ Text.trim s = s

structure Suite.Normal (suite : Suite) : Prop extends suite.WellFormed where
  settings : ∀ test ∈ suite.tests, ∀ step ∈ test.steps, step.NormalSettings

/-! ### Mappings written field by field -/

namespace Entries

variable {fields : List (String × Value)} {entries : Entries} {name : String} {value : Value}

theorem get?_ofFields : (ofFields fields).get? name = fields.lookup name := by
  induction fields with
  | nil => rfl
  | cons field rest ih =>
      obtain ⟨key, value⟩ := field
      have hrest : (ofFields ((key, value) :: rest)).get? name =
          if key = name then some value else (ofFields rest).get? name := by
        by_cases hkey : key = name <;> simp [ofFields, get?, Value.isKey, hkey]
      rw [hrest, ih, Config.lookup_cons]
      simp only [eq_comm (a := name)]

theorem field?_ofFields (hlookup : fields.lookup name = some value) (hnull : value.isNull = false) :
    (ofFields fields).field? name = some value := by
  rw [field?, get?_ofFields, hlookup]
  simp [hnull]

theorem hasText_of_field? {text : String} (hfield : entries.field? name = some (.str text)) :
    entries.HasText name text :=
  ⟨_, hfield, rfl⟩

theorem has_text {property : String → Prop} {text : String}
    (hfield : entries.field? name = some (.str text)) (h : property text) :
    entries.Has name fun value => value.IsText property :=
  ⟨_, hfield, Value.isText_str_iff.mpr h⟩

theorem hasParts_of_field? {parts : List α} {toValue : α → Value} {form : Entries → Prop}
    {mirrors : α → Entries → Prop} (hfield : entries.field? name = some (.seq (parts.map toValue)))
    (h : ∀ part ∈ parts, (toValue part).IsMapping fun fields => form fields ∧ mirrors part fields) :
    (entries.Has name fun value => value.IsSequence fun item => item.IsMapping form)
      ∧ entries.HasParts name (fun item part => item.IsMapping (mirrors part)) parts := by
  constructor
  · refine ⟨_, hfield, parts.map toValue, rfl, ?_⟩
    intro item hitem
    obtain ⟨part, hpart, rfl⟩ := List.mem_map.mp hitem
    exact (h part hpart).imp fun fields hboth => hboth.1
  · refine ⟨_, hfield, parts.map toValue, rfl, ?_⟩
    rw [List.forall₂_map_left_iff, List.forall₂_same]
    intro part hpart
    exact (h part hpart).imp fun fields hboth => hboth.2

theorem plainKeys_ofFields (hsorted : fields.Pairwise fun a b => a.1 < b.1) :
    (ofFields fields).PlainKeys := by
  constructor
  · intro entry hentry
    obtain ⟨field, -, rfl⟩ := List.mem_map.mp hentry
    exact ⟨field.1, rfl⟩
  · rw [ofFields, List.map_map, List.Nodup, List.pairwise_map]
    refine hsorted.imp fun hlt hsame => ?_
    have hkeys := Option.some.inj hsame
    rw [hkeys] at hlt
    exact String.lt_irrefl _ hlt

end Entries

namespace Schema

theorem trim_of_mem_httpMethods : ∀ method ∈ httpMethods, Text.trim method = method := by
  decide +kernel

end Schema

theorem Step.NormalSettings.respelled_eq {step : Step} {name : String} {value : Value}
    (h : step.NormalSettings) (hget : step.config.get? name = some value) :
    respelled step.plugin name value = value := by
  cases hplugin : step.plugin with
  | http =>
      by_cases hname : name = "method"
      · subst hname
        by_cases hnull : value.isNull = true
        · cases value with
          | str s => cases hnull
          | _ => rfl
        · obtain ⟨s, hs, rfl⟩ := h.method hplugin value hget (by simpa using hnull)
          rw [Suite.respelled_method, Suite.mapText, trim_of_mem_httpMethods s hs,
            (upper_of_mem_httpMethods s hs).1]
      · rw [Suite.respelled_http_of_ne hname, id]
  | delay =>
      by_cases hname : name = "duration"
      · subst hname
        obtain ⟨s, hduration, htrim⟩ := h.duration hplugin
        obtain rfl : Value.str s = value := Option.some.inj (hduration.symm.trans hget)
        rw [Suite.respelled_duration, Suite.mapText, htrim]
      · rw [Suite.respelled_delay_of_ne hname, id]

theorem Step.NormalSettings.isMapping_toValue {step : Step} (h : step.NormalSettings) :
    step.config.toValue.IsMapping fun entries =>
      IsConfig step.plugin entries ∧ step.config.Mirrors step.plugin entries := by
  have hplain := Entries.plainKeys_ofFields step.config.sorted
  have hget : ∀ name, (Entries.ofFields step.config.entries).get? name = step.config.get? name :=
    fun _ => Entries.get?_ofFields
  refine ⟨_, rfl, ⟨?_, ?_⟩, ?_, ?_⟩
  · intro entry hentry
    obtain ⟨s, hkey⟩ := hplain.1 entry hentry
    exact ⟨s, by rw [hkey]; rfl⟩
  · rw [isSettings_iff_keptBy]
    intro rule hrule
    rw [hget]
    exact h.rules rule hrule
  · intro name
    simp [Entries.ofFields, Value.str?, Value.untag]
  · intro name value hmem
    rw [Config.mem_entries_iff] at hmem
    refine ⟨value, ?_, (h.respelled_eq hmem).symm⟩
    rw [hplain.lastSpelled?_eq_get?, hget, hmem]

theorem Assertion.WellFormed.isMapping_toValue {assertion : Assertion} (h : assertion.WellFormed) :
    assertion.toValue.IsMapping fun entries => IsAssertion entries ∧ assertion.Mirrors entries := by
  generalize hfields : ("type", Value.str assertion.kind.name) :: assertion.payload = fields
  refine ⟨Entries.ofFields fields, by rw [← hfields]; rfl, ?_⟩
  have htype : (Entries.ofFields fields).HasText "type" assertion.kind.name := by
    refine Entries.hasText_of_field? (Entries.field?_ofFields ?_ rfl)
    simp [← hfields]
  cases assertion with
  | statusCode code =>
      have hfield : (Entries.ofFields fields).field? "expected" = some (.int code.toNat) := by
        refine Entries.field?_ofFields ?_ rfl
        simp [← hfields, payload, Config.lookup_cons]
      have hcode : (Value.int code.toNat).nat? = some code.toNat := by
        simp [Value.nat?, Value.untag]
      refine ⟨⟨.statusCode, htype, .statusCode ⟨_, hfield, code.toNat, hcode, h⟩⟩, htype, ?_⟩
      exact ⟨_, hfield, hcode⟩
  | jsonPath path expected =>
      have hpath : (Entries.ofFields fields).field? "path" = some (.str path) := by
        refine Entries.field?_ofFields ?_ rfl
        simp [← hfields, payload, Config.lookup_cons]
      have hexpected : (Entries.ofFields fields).get? "expected" = some expected := by
        rw [Entries.get?_ofFields]
        simp [← hfields, payload, Config.lookup_cons]
      have hpayload := IsPayload.jsonPath (Entries.has_text hpath h) ⟨expected, hexpected⟩
      exact ⟨⟨.jsonPath, htype, hpayload⟩, htype, Entries.hasText_of_field? hpath, hexpected⟩
  | header name expected =>
      have hname : (Entries.ofFields fields).field? "name" = some (.str name) := by
        refine Entries.field?_ofFields ?_ rfl
        simp [← hfields, payload, Config.lookup_cons]
      have hexpected : (Entries.ofFields fields).field? "expected" = some (.str expected) := by
        refine Entries.field?_ofFields ?_ rfl
        simp [← hfields, payload, Config.lookup_cons]
      have hpayload :=
        IsPayload.header (Entries.has_text hname h) (Entries.has_text hexpected trivial)
      exact ⟨⟨.header, htype, hpayload⟩, htype, Entries.hasText_of_field? hname,
        Entries.hasText_of_field? hexpected⟩
  | bodyContains expected =>
      have hexpected : (Entries.ofFields fields).field? "expected" = some (.str expected) := by
        refine Entries.field?_ofFields ?_ rfl
        simp [← hfields, payload, Config.lookup_cons]
      have hpayload := IsPayload.bodyContains (Entries.has_text hexpected h)
      exact ⟨⟨.bodyContains, htype, hpayload⟩, htype, Entries.hasText_of_field? hexpected⟩

theorem Capture.WellFormed.isMapping_toValue {capture : Capture} (h : capture.WellFormed) :
    capture.toValue.IsMapping fun entries => IsCapture entries ∧ capture.Mirrors entries := by
  generalize hfields :
    [("json_path", Value.str capture.jsonPath), ("as", .str capture.name)] = fields
  refine ⟨Entries.ofFields fields, by rw [← hfields]; rfl, ?_⟩
  have hpath : (Entries.ofFields fields).field? "json_path" = some (.str capture.jsonPath) := by
    refine Entries.field?_ofFields ?_ rfl
    simp [← hfields]
  have hname : (Entries.ofFields fields).field? "as" = some (.str capture.name) := by
    refine Entries.field?_ofFields ?_ rfl
    simp [← hfields, Config.lookup_cons]
  refine ⟨⟨Entries.has_text hpath h.jsonPath, Entries.has_text hname h.name⟩, ?_⟩
  exact ⟨Entries.hasText_of_field? hpath, Entries.hasText_of_field? hname⟩

theorem Text.IsName.nonBlank {s : String} (h : Text.IsName s) : Text.NonBlank s := by
  rw [← Text.isEmpty_trim_iff, h.2, Bool.eq_false_iff, ne_eq, String.isEmpty_iff]
  exact h.1

theorem Entries.hasTrimmed_of_field? {entries : Entries} {name text : String}
    (hfield : entries.field? name = some (.str text)) (h : Text.IsName text) :
    entries.HasTrimmed name text :=
  ⟨text, Entries.hasText_of_field? hfield, h.2.symm⟩

theorem Entries.MayHaveText.mayHave {entries : Entries} {name : String} {text : Option String}
    (h : entries.MayHaveText name text) : entries.MayHave name Shape.text.Admits := by
  intro value hfield
  cases text with
  | none =>
      rw [Entries.MayHaveText, hfield] at h
      cases h
  | some s =>
      obtain ⟨written, hwritten, hstr⟩ := h
      obtain rfl : written = value := Option.some.inj (hwritten.symm.trans hfield)
      exact ⟨s, hstr, trivial⟩

theorem Entries.Has.someSequence {entries : Entries} {name : String} {items : List Value}
    {form : Value → Prop} (h : entries.Has name fun value => value.IsSequence form)
    (hfield : entries.field? name = some (.seq items)) (hne : items ≠ []) :
    entries.Has name fun value => value.IsSomeSequence form := by
  obtain ⟨value, hvalue, items', hseq, hitems⟩ := h
  obtain rfl : value = .seq items := Option.some.inj (hvalue.symm.trans hfield)
  obtain rfl : items = items' := Option.some.inj hseq
  exact ⟨_, hfield, items, rfl, hne, hitems⟩

theorem Step.isMapping_toValue {step : Step} (h : step.WellFormed)
    (hsettings : step.NormalSettings) :
    step.toValue.IsMapping fun entries => IsStep entries ∧ step.Mirrors entries := by
  generalize hfields : [("name", Value.str step.name), ("plugin", .str step.plugin.name),
    ("config", step.config.toValue), ("assertions", .seq (step.assertions.map (·.toValue))),
    ("save", .seq (step.captures.map (·.toValue)))] = fields
  refine ⟨Entries.ofFields fields, by rw [← hfields]; rfl, ?_⟩
  have hname : (Entries.ofFields fields).field? "name" = some (.str step.name) := by
    refine Entries.field?_ofFields ?_ rfl
    simp [← hfields]
  have hplugin : (Entries.ofFields fields).HasText "plugin" step.plugin.name := by
    refine Entries.hasText_of_field? (Entries.field?_ofFields ?_ rfl)
    simp [← hfields, Config.lookup_cons]
  have hconfig : (Entries.ofFields fields).field? "config" = some step.config.toValue := by
    refine Entries.field?_ofFields ?_ rfl
    simp [← hfields, Config.lookup_cons]
  have hassertions : (Entries.ofFields fields).field? "assertions"
      = some (.seq (step.assertions.map (·.toValue))) := by
    refine Entries.field?_ofFields ?_ rfl
    simp [← hfields, Config.lookup_cons]
  have hcaptures : (Entries.ofFields fields).field? "save"
      = some (.seq (step.captures.map (·.toValue))) := by
    refine Entries.field?_ofFields ?_ rfl
    simp [← hfields, Config.lookup_cons]
  obtain ⟨settings, hmap, hisConfig, hmirrors⟩ := hsettings.isMapping_toValue
  obtain ⟨hformA, hpartsA⟩ := Entries.hasParts_of_field? hassertions fun assertion hmem =>
    (h.assertions assertion hmem).isMapping_toValue
  obtain ⟨hformC, hpartsC⟩ := Entries.hasParts_of_field? hcaptures fun capture hmem =>
    (h.captures capture hmem).isMapping_toValue
  constructor
  · exact
      { name := Entries.has_text hname h.name.nonBlank
        action := ⟨step.plugin, hplugin, _, hconfig, settings, hmap, hisConfig⟩
        assertions := hformA.mayHave fun _ => id
        captures := hformC.mayHave fun _ => id }
  · exact
      { name := Entries.hasTrimmed_of_field? hname h.name
        plugin := hplugin
        config := ⟨_, hconfig, settings, hmap, hmirrors⟩
        assertions := Or.inr hpartsA
        captures := Or.inr hpartsC }

/-! A test and a suite begin with the same two fields, of which the second may be missing. -/

section Heading

variable (name : String) (description : Option String) (key : String) (value : Value)

theorem field?_name_heading :
    (Entries.ofFields (headingFields name description ++ [(key, value)])).field? "name"
      = some (.str name) :=
  Entries.field?_ofFields (by simp [headingFields]) rfl

theorem mayHaveText_heading (hkey : key ≠ "description") :
    (Entries.ofFields (headingFields name description ++ [(key, value)])).MayHaveText
      "description" description := by
  cases description with
  | none =>
      have hnone : (Entries.ofFields (headingFields name none ++ [(key, value)])).get? "description"
          = none := by
        simp [Entries.get?_ofFields, headingFields, Config.lookup_cons, hkey.symm]
      rw [Entries.MayHaveText, Entries.field?, hnone, Option.filter_none]
  | some text =>
      refine Entries.hasText_of_field? (Entries.field?_ofFields ?_ rfl)
      simp [headingFields, Config.lookup_cons]

theorem field?_items_heading (hname : key ≠ "name") (hkey : key ≠ "description")
    (hnull : value.isNull = false) :
    (Entries.ofFields (headingFields name description ++ [(key, value)])).field? key
      = some value := by
  refine Entries.field?_ofFields ?_ hnull
  cases description <;> simp [headingFields, Config.lookup_cons, hname, hkey]

end Heading

theorem Test.isMapping_toValue {test : Test} (h : test.WellFormed)
    (hsettings : ∀ step ∈ test.steps, step.NormalSettings) :
    test.toValue.IsMapping fun entries => IsTest entries ∧ test.Mirrors entries := by
  have hname := field?_name_heading test.name test.description "steps"
    (.seq (test.steps.map (·.toValue)))
  have hdescription := mayHaveText_heading test.name test.description "steps"
    (.seq (test.steps.map (·.toValue))) (by decide)
  have hsteps := field?_items_heading test.name test.description "steps"
    (.seq (test.steps.map (·.toValue))) (by decide) (by decide) rfl
  obtain ⟨hform, hparts⟩ := Entries.hasParts_of_field? hsteps fun step hmem =>
    Step.isMapping_toValue (h.steps step hmem) (hsettings step hmem)
  have hne : test.steps.map (·.toValue) ≠ [] := by
    simpa using h.someSteps
  refine ⟨_, rfl, ?_, ?_⟩
  · exact
      { name := Entries.has_text hname h.name.nonBlank
        description := hdescription.mayHave
        steps := hform.someSequence hsteps hne }
  · exact
      { name := Entries.hasTrimmed_of_field? hname h.name
        description := hdescription
        steps := hparts }

theorem Suite.isMapping_toValue {suite : Suite} (h : suite.Normal) :
    suite.toValue.IsMapping fun entries => IsSuite entries ∧ suite.Mirrors entries := by
  have hname := field?_name_heading suite.name suite.description "tests"
    (.seq (suite.tests.map (·.toValue)))
  have hdescription := mayHaveText_heading suite.name suite.description "tests"
    (.seq (suite.tests.map (·.toValue))) (by decide)
  have htests := field?_items_heading suite.name suite.description "tests"
    (.seq (suite.tests.map (·.toValue))) (by decide) (by decide) rfl
  obtain ⟨hform, hparts⟩ := Entries.hasParts_of_field? htests fun test hmem =>
    Test.isMapping_toValue (h.tests test hmem) (h.settings test hmem)
  have hne : suite.tests.map (·.toValue) ≠ [] := by
    simpa using h.someTests
  refine ⟨_, rfl, ?_, ?_⟩
  · exact
      { name := Entries.has_text hname h.name.nonBlank
        description := hdescription.mayHave
        tests := hform.someSequence htests hne }
  · exact
      { name := Entries.hasTrimmed_of_field? hname h.name
        description := hdescription
        tests := hparts }

/-- **Suites are read back.** The document of a suite in normal form, which has the layout of the
suite's JSON form, is accepted, and what is built from it is the suite. -/
theorem Suite.build_toValue {suite : Suite} (h : suite.Normal) :
    suite.toValue.toJson = suite.toJson ∧ Schema.validate suite.toValue = .ok ()
      ∧ Suite.build suite.toValue = .ok suite := by
  obtain ⟨entries, hmap, hisSuite, hmirrors⟩ := Suite.isMapping_toValue h
  have hform : suite.toValue.IsMapping IsSuite := ⟨entries, hmap, hisSuite⟩
  have hvalid : Schema.validate suite.toValue = .ok () := by
    rwa [validate_eq_ok_iff_clean, clean_checkSuite_iff]
  obtain ⟨built, hbuild⟩ := Suite.build_of_validate_eq_ok hvalid
  obtain ⟨entries', hmap', hbuilt⟩ := Suite.mirrors_of_build hform hbuild
  obtain rfl : entries = entries' := Option.some.inj (hmap.symm.trans hmap')
  have hsame : built = suite := hbuilt.unique hmirrors
  exact ⟨suite.toJson_toValue, hvalid, hsame ▸ hbuild⟩

theorem Suite.build_toValue_put :
    let settings := (Config.empty.insert "url" (.str "u")).insert "method" (.str "PUT")
    let assertions : List Assertion := [.jsonPath "p" .null, .statusCode 204]
    let step : Step := ⟨"s", .http, settings, assertions, [⟨".id", "_id"⟩]⟩
    let suite : Suite := ⟨"suite", none, [⟨"t", some "", [step]⟩]⟩
    suite.Normal ∧ suite.toValue.toJson = suite.toJson ∧ Schema.validate suite.toValue = .ok ()
      ∧ Suite.build suite.toValue = .ok suite := by
  intro settings assertions step suite
  have hstep : step.WellFormed := by
    refine ⟨⟨by decide, by decide +kernel⟩, ?_, ?_⟩
    · intro assertion hmem
      obtain rfl | rfl : assertion = .jsonPath "p" .null ∨ assertion = .statusCode 204 := by
        simpa [step, assertions] using hmem
      · exact Text.isEmpty_trim_iff.mp (by decide +kernel)
      · exact ⟨by decide, by decide⟩
    · intro capture hmem
      obtain rfl : capture = ⟨".id", "_id"⟩ := by simpa [step] using hmem
      exact ⟨Text.isEmpty_trim_iff.mp (by decide +kernel), isIdentifier_iff.mp (by decide +kernel)⟩
  have hsettings : step.NormalSettings := by
    have hurl : settings.get? "url" = some (.str "u") := by
      simp [settings, Config.get?_insert]
    have hmethod : settings.get? "method" = some (.str "PUT") := by
      simp [settings, Config.get?_insert]
    have hheaders : settings.get? "headers" = none := by
      simp [settings, Config.get?_insert, Config.get?_empty]
    have hbody : settings.get? "body" = none := by
      simp [settings, Config.get?_insert, Config.get?_empty]
    refine ⟨?_, ?_, ?_⟩
    · simp only [Step.KeepsRules, step, configRules, List.forall_mem_cons, FieldRule.mandatory,
        FieldRule.elective, hurl, hmethod, hheaders, hbody]
      have hoptional {P : Prop} (h : false = true) : P := absurd h Bool.false_ne_true
      have habsent {P : Value → Prop} (value : Value) (h : none = some value) : P value :=
        absurd h.symm (Option.some_ne_none value)
      refine ⟨⟨fun _ => ⟨_, rfl, rfl⟩, ?_⟩, ⟨hoptional, ?_⟩, ⟨hoptional, habsent⟩,
        ⟨hoptional, habsent⟩, List.forall_mem_nil _⟩
      · rintro value ⟨⟩ -
        exact Shape.check_eq_ok_iff.mpr ⟨"u", rfl, Text.isEmpty_trim_iff.mp (by decide +kernel)⟩
      · rintro value ⟨⟩ -
        exact Shape.check_eq_ok_iff.mpr ⟨"PUT", rfl, by unfold IsMethodText; decide +kernel⟩
    · intro _ value hvalue _
      obtain rfl : Value.str "PUT" = value := Option.some.inj (hmethod.symm.trans hvalue)
      exact ⟨"PUT", by decide, rfl⟩
    · intro hplugin
      cases hplugin
  have htest : Test.WellFormed ⟨"t", some "", [step]⟩ := by
    refine ⟨⟨by decide, by decide +kernel⟩, by simp, ?_⟩
    simpa using hstep
  have hnormal : suite.Normal := by
    refine ⟨⟨⟨by decide, by decide +kernel⟩, by simp [suite], ?_⟩, ?_⟩
    · simpa [suite] using htest
    · simpa [suite] using hsettings
  exact ⟨hnormal, Suite.build_toValue hnormal⟩

end ApiSuite
