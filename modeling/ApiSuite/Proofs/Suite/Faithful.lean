import ApiSuite.Proofs.Schema.Acceptance
import ApiSuite.Proofs.Suite.Config
import ApiSuite.Proofs.Suite.Located

/-!
# The suite says what the document says

What each part of a suite has to do with the mapping it was built from, part by part: the lists of
parts go item by item with the sequences they come from, texts are as written but for the names, which
lose the blanks at their ends, and a step holds every setting once, as it was last written.
-/

namespace ApiSuite

/-- The settings under the text of each key, with the value that was last written under it. -/
structure Config.Mirrors (config : Config) (plugin : Plugin) (entries : Entries) : Prop where
  keys : ∀ name, (∃ value, (name, value) ∈ config.entries) ↔ ∃ entry ∈ entries, entry.1.str? = some name
  values : ∀ name value, (name, value) ∈ config.entries →
    ∃ written, entries.lastSpelled? name = some written ∧ value = respelled plugin name written

/-- What is expected, as written; only a value expected at a path may be null. -/
def Assertion.HasPayload (entries : Entries) : Assertion → Prop
  | .statusCode code => entries.Has "expected" fun value => value.nat? = some code.toNat
  | .jsonPath path expected => entries.HasText "path" path ∧ entries.get? "expected" = some expected
  | .header name expected => entries.HasText "name" name ∧ entries.HasText "expected" expected
  | .bodyContains expected => entries.HasText "expected" expected

structure Assertion.Mirrors (assertion : Assertion) (entries : Entries) : Prop where
  type : entries.HasText "type" assertion.kind.name
  payload : assertion.HasPayload entries

structure Capture.Mirrors (capture : Capture) (entries : Entries) : Prop where
  jsonPath : entries.HasText "json_path" capture.jsonPath
  name : entries.HasText "as" capture.name

structure Step.Mirrors (step : Step) (entries : Entries) : Prop where
  name : entries.HasTrimmed "name" step.name
  plugin : entries.HasText "plugin" step.plugin.name
  config : entries.Has "config" fun value => value.IsMapping (step.config.Mirrors step.plugin)
  assertions : entries.MayHaveParts "assertions"
    (fun item assertion => item.IsMapping assertion.Mirrors) step.assertions
  captures : entries.MayHaveParts "save"
    (fun item capture => item.IsMapping capture.Mirrors) step.captures

structure Test.Mirrors (test : Test) (entries : Entries) : Prop where
  name : entries.HasTrimmed "name" test.name
  description : entries.MayHaveText "description" test.description
  steps : entries.HasParts "steps" (fun item step => item.IsMapping step.Mirrors) test.steps

structure Suite.Mirrors (suite : Suite) (entries : Entries) : Prop where
  name : entries.HasTrimmed "name" suite.name
  description : entries.MayHaveText "description" suite.description
  tests : entries.HasParts "tests" (fun item test => item.IsMapping test.Mirrors) suite.tests

namespace Suite

open Schema

variable {α : Type} {value : Value} {entries : Entries} {name : String}

/-! ### Fields -/

theorem mayHaveText_descriptionField (h : entries.MayHave "description" Shape.text.Admits) :
    entries.MayHaveText "description" (descriptionField entries) := by
  unfold descriptionField
  cases hfield : entries.field? "description" with
  | none => exact hfield
  | some value =>
      obtain ⟨text, htext, -⟩ := h value hfield
      simp only [Option.bind_eq_bind, Option.bind_some, htext]
      exact ⟨value, hfield, htext⟩

theorem mayHaveParts_of_anyItems {form : Value → Prop} {build : Value → Built α} {parts : List α}
    (hform : entries.MayHave name fun value => value.IsSequence form)
    (h : anyItems entries name build = .ok parts) :
    entries.MayHaveParts name (fun item part => build item = .ok part) parts := by
  have hparts := anyItems_eq_ok_iff.mp h
  cases hfield : entries.field? name with
  | none =>
      rw [hfield] at hparts
      cases hparts
      exact Or.inl ⟨hfield, rfl⟩
  | some value =>
      obtain ⟨items, hseq, -⟩ := hform value hfield
      simp only [hfield, Option.bind_eq_bind, Option.bind_some, hseq, Option.getD_some] at hparts
      exact Or.inr ⟨value, hfield, items, hseq, hparts⟩

theorem hasText_of_pick {β : Type} {ofName? : String → Option α} {fault : String → BuildFault}
    {next : α → Built β} {built : β}
    (h : (textField entries name >>= fun text =>
      Built.atKey name (.ofOption (fault text) (ofName? text)) >>= next) = .ok built) :
    ∃ text chosen, entries.HasText name text ∧ ofName? text = some chosen ∧ next chosen = .ok built := by
  obtain ⟨text, htext, h⟩ := bind_eq_ok_iff.mp h
  obtain ⟨chosen, hchosen, hnext⟩ := bind_eq_ok_iff.mp h
  rw [Built.atKey_eq_ok_iff, Built.ofOption_eq_ok_iff] at hchosen
  exact ⟨text, chosen, textField_eq_ok_iff.mp htext, hchosen, hnext⟩

/-! ### Parts of a suite -/

theorem mirrors_of_buildConfig {plugin : Plugin} {config : Config}
    (h : buildConfig plugin value = .ok config) : value.IsMapping (config.Mirrors plugin) := by
  obtain ⟨entries, hmap, hget⟩ := get?_of_buildConfig h
  refine ⟨entries, hmap, fun name => ?_, fun name value hmem => ?_⟩
  · rw [← Entries.lastSpelled?_isSome_iff]
    simp [Config.mem_entries_iff, hget]
  · rw [Config.mem_entries_iff, hget, Option.map_eq_some_iff] at hmem
    obtain ⟨written, hwritten, rfl⟩ := hmem
    exact ⟨written, hwritten, rfl⟩

theorem mirrors_of_buildAssertion {assertion : Assertion} (h : buildAssertion value = .ok assertion) :
    value.IsMapping assertion.Mirrors := by
  obtain ⟨entries, hmap, h⟩ := needMapping_bind_eq_ok_iff.mp h
  refine ⟨entries, hmap, ?_⟩
  obtain ⟨text, kind, htype, hkind, h⟩ := hasText_of_pick h
  rw [AssertionKind.ofName?_eq_some_iff] at hkind
  subst hkind
  cases kind with
  | statusCode =>
      obtain ⟨expected, hfield, h⟩ := bind_eq_ok_iff.mp h
      rw [Built.atKey_fail] at h
      split at h
      case h_1 code hcode =>
        by_cases hsize : code < UInt16.size
        · rw [if_pos hsize] at h
          cases h
          have hsame : (UInt16.ofNat code).toNat = code := UInt16.toNat_ofNat_of_lt' hsize
          rw [← hsame] at hcode
          exact ⟨htype, expected, needField_eq_ok_iff.mp hfield, hcode⟩
        · rw [if_neg hsize] at h
          cases h
      case h_2 => cases h
  | jsonPath =>
      obtain ⟨path, hpath, h⟩ := bind_eq_ok_iff.mp h
      obtain ⟨expected, hexpected, h⟩ := bind_eq_ok_iff.mp h
      cases h
      rw [Built.atKey_eq_ok_iff, Built.ofOption_eq_ok_iff] at hexpected
      exact ⟨htype, textField_eq_ok_iff.mp hpath, hexpected⟩
  | header =>
      obtain ⟨header, hheader, h⟩ := bind_eq_ok_iff.mp h
      obtain ⟨expected, hexpected, h⟩ := bind_eq_ok_iff.mp h
      cases h
      exact ⟨htype, textField_eq_ok_iff.mp hheader, textField_eq_ok_iff.mp hexpected⟩
  | bodyContains =>
      obtain ⟨expected, hexpected, h⟩ := bind_eq_ok_iff.mp h
      cases h
      exact ⟨htype, textField_eq_ok_iff.mp hexpected⟩

theorem mirrors_of_buildCapture {capture : Capture} (h : buildCapture value = .ok capture) :
    value.IsMapping capture.Mirrors := by
  obtain ⟨entries, hmap, h⟩ := needMapping_bind_eq_ok_iff.mp h
  obtain ⟨jsonPath, hpath, h⟩ := bind_eq_ok_iff.mp h
  obtain ⟨name, hname, h⟩ := bind_eq_ok_iff.mp h
  cases h
  exact ⟨entries, hmap, textField_eq_ok_iff.mp hpath, textField_eq_ok_iff.mp hname⟩

theorem mirrors_of_buildStep {step : Step} (hform : value.IsMapping IsStep)
    (h : buildStep value = .ok step) : value.IsMapping step.Mirrors := by
  obtain ⟨entries, hmap, hisStep, h⟩ := hform.and (needMapping_bind_eq_ok_iff.mp h)
  obtain ⟨text, plugin, hplugin, hnamed, h⟩ := hasText_of_pick h
  rw [Plugin.ofName?_eq_some_iff] at hnamed
  subst hnamed
  obtain ⟨settings, hsettings, h⟩ := bind_eq_ok_iff.mp h
  obtain ⟨config, hconfig, h⟩ := bind_eq_ok_iff.mp h
  obtain ⟨assertions, hassertions, h⟩ := bind_eq_ok_iff.mp h
  obtain ⟨captures, hcaptures, h⟩ := bind_eq_ok_iff.mp h
  obtain ⟨name, hname, h⟩ := bind_eq_ok_iff.mp h
  cases h
  refine ⟨entries, hmap, nameField_eq_ok_iff.mp hname, hplugin, ?_, ?_, ?_⟩
  · rw [Built.atKey_eq_ok_iff] at hconfig
    exact ⟨settings, needField_eq_ok_iff.mp hsettings, mirrors_of_buildConfig hconfig⟩
  · have hparts := mayHaveParts_of_anyItems hisStep.assertions hassertions
    exact hparts.imp fun item assertion => mirrors_of_buildAssertion
  · have hparts := mayHaveParts_of_anyItems hisStep.captures hcaptures
    exact hparts.imp fun item capture => mirrors_of_buildCapture

theorem mirrors_of_buildTest {test : Test} (hform : value.IsMapping IsTest)
    (h : buildTest value = .ok test) : value.IsMapping test.Mirrors := by
  obtain ⟨entries, hmap, hisTest, h⟩ := hform.and (needMapping_bind_eq_ok_iff.mp h)
  obtain ⟨steps, hsteps, h⟩ := bind_eq_ok_iff.mp h
  obtain ⟨name, hname, h⟩ := bind_eq_ok_iff.mp h
  cases h
  refine ⟨entries, hmap, nameField_eq_ok_iff.mp hname, ?_, ?_⟩
  · exact mayHaveText_descriptionField hisTest.description
  · have hitems := hisTest.steps.mayHave Value.IsSomeSequence.isSequence
    exact (someItems_eq_ok_iff.mp hsteps).imp_of_form hitems fun item step => mirrors_of_buildStep

theorem mirrors_of_build {suite : Suite} (hform : value.IsMapping IsSuite)
    (h : build value = .ok suite) : value.IsMapping suite.Mirrors := by
  obtain ⟨entries, hmap, hisSuite, h⟩ := hform.and (needMapping_bind_eq_ok_iff.mp h)
  obtain ⟨tests, htests, h⟩ := bind_eq_ok_iff.mp h
  obtain ⟨name, hname, h⟩ := bind_eq_ok_iff.mp h
  cases h
  refine ⟨entries, hmap, nameField_eq_ok_iff.mp hname, ?_, ?_⟩
  · exact mayHaveText_descriptionField hisSuite.description
  · have hitems := hisSuite.tests.mayHave Value.IsSomeSequence.isSequence
    exact (someItems_eq_ok_iff.mp htests).imp_of_form hitems fun item test => mirrors_of_buildTest

/-- **Builds are faithful.** An accepted document is built, and the suite mirrors it in every part. -/
theorem build_mirrors {document : Value} (h : Schema.validate document = .ok ()) :
    ∃ suite, build document = .ok suite ∧ document.IsMapping suite.Mirrors := by
  obtain ⟨suite, hbuild⟩ := build_of_validate_eq_ok h
  rw [validate_eq_ok_iff_clean, clean_checkSuite_iff] at h
  exact ⟨suite, hbuild, mirrors_of_build h hbuild⟩

theorem build_mirrors_tagged_url :
    let settings : Value := .map [(.str "url", .str "u"), (.str "method", .str " post "),
      (.tagged "k" (.str "url"), .str " v ")]
    let expectation : Value := .map [(.str "type", .str "json_path"), (.str "path", .str "p"),
      (.str "expected", .null)]
    let step : Value := .map [(.str "name", .str " s"), (.str "plugin", .str "http"),
      (.str "config", settings), (.str "assertions", .seq [expectation]), (.str "save", .null)]
    let test : Value := .map [(.str "name", .str "t "), (.str "steps", .seq [step])]
    let document : Value := .map [(.str "name", .str "suite"), (.str "tests", .seq [test])]
    Schema.validate document = .ok ()
      ∧ ∃ suite, build document = .ok suite ∧ document.IsMapping suite.Mirrors := by
  intro settings expectation step test document
  have hvalid : Schema.validate document = .ok () := by decide +kernel
  exact ⟨hvalid, build_mirrors hvalid⟩

end Suite

end ApiSuite
