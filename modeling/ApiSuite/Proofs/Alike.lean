import ApiSuite.Proofs.Schema.Acceptance
import ApiSuite.Proofs.Suite.Built
import Mathlib.Data.List.Nodup

/-!
# Documents that are read alike

Above the settings of its steps a document is read for the values of a few fields, and a null there
is as good as no field. Two mappings that agree on these fields are alike, whatever the order of their
entries and whatever they hold besides. Which fields an assertion is read for depends on its type, and
the value that is expected at a path is the one for which a null counts. Documents that are alike all
the way down have the same violations and stand for the same suite.
-/

namespace ApiSuite

open Schema

/-! ### Mappings and sequences that are alike -/

namespace Entries

variable {entries entries' : Entries} {names : List String} {name : String}

/-- The same values under these names, a null being no value. -/
def AgreeOn (names : List String) (entries entries' : Entries) : Prop :=
  ∀ name ∈ names, entries.field? name = entries'.field? name

/-- The same values under the names of these rules, a null being a value where the rule says so. -/
def AgreeUnder (rules : List FieldRule) (entries entries' : Entries) : Prop :=
  ∀ rule ∈ rules, rule.value? entries = rule.value? entries'

/-- No value under the name in either mapping, or values that are alike. -/
inductive FieldAlike (name : String) (alike : Value → Value → Prop) (entries entries' : Entries) :
    Prop where
  | absent (h : entries.field? name = none) (h' : entries'.field? name = none)
  | present {value value' : Value} (hfield : entries.field? name = some value)
      (hfield' : entries'.field? name = some value') (h : alike value value')

theorem AgreeUnder.field?_eq {rules : List FieldRule} {shape : Shape}
    (h : AgreeUnder rules entries entries') (hrule : .mandatory name shape ∈ rules) :
    entries.field? name = entries'.field? name :=
  h _ hrule

end Entries

namespace Value

/-- The same value, or mappings that are alike. -/
inductive MappingAlike (alike : Entries → Entries → Prop) (value value' : Value) : Prop where
  | same (h : value = value')
  | mapping {entries entries' : Entries} (hmap : value.map? = some entries)
      (hmap' : value'.map? = some entries') (h : alike entries entries')

/-- The same value, or sequences of mappings that are alike one by one. -/
inductive ItemsAlike (alike : Entries → Entries → Prop) (value value' : Value) : Prop where
  | same (h : value = value')
  | items {items items' : List Value} (hseq : value.seq? = some items)
      (hseq' : value'.seq? = some items') (h : List.Forall₂ (MappingAlike alike) items items')

end Value

/-! ### Parts of a document -/

structure AssertionAlike (entries entries' : Entries) : Prop where
  type : entries.field? "type" = entries'.field? "type"
  payload : ∀ kind : AssertionKind, entries.HasText "type" kind.name →
    Entries.AgreeUnder (assertionRules kind) entries entries'

def CaptureAlike (entries entries' : Entries) : Prop :=
  Entries.AgreeUnder captureRules entries entries'

structure StepAlike (entries entries' : Entries) : Prop where
  fields : Entries.AgreeOn ["name", "plugin", "config"] entries entries'
  assertions : Entries.FieldAlike "assertions" (Value.ItemsAlike AssertionAlike) entries entries'
  captures : Entries.FieldAlike "save" (Value.ItemsAlike CaptureAlike) entries entries'

structure TestAlike (entries entries' : Entries) : Prop where
  fields : Entries.AgreeOn ["name", "description"] entries entries'
  steps : Entries.FieldAlike "steps" (Value.ItemsAlike StepAlike) entries entries'

structure SuiteAlike (entries entries' : Entries) : Prop where
  fields : Entries.AgreeOn ["name", "description"] entries entries'
  tests : Entries.FieldAlike "tests" (Value.ItemsAlike TestAlike) entries entries'

def Value.Alike (document document' : Value) : Prop :=
  document.MappingAlike SuiteAlike document'

variable {entries entries' : Entries} {name : String} {names : List String}
  {alike : Entries → Entries → Prop}

/-! ### What is found -/

namespace Schema

open Findings

theorem defects_unknownKeys (known : List String) : (unknownKeys known entries).defects = [] := rfl

theorem checkField_congr {rule : FieldRule} (h : rule.value? entries = rule.value? entries') :
    checkField entries rule = checkField entries' rule := by
  rw [checkField, checkField, h]

theorem checkFields_congr {rules : List FieldRule} (h : Entries.AgreeUnder rules entries entries') :
    checkFields rules entries = checkFields rules entries' := by
  rw [checkFields, checkFields, List.map_congr_left fun rule hrule => checkField_congr (h rule hrule)]

theorem choice_congr {α : Type} {ofName? : String → Option α} {unknown : String → Defect}
    (h : entries.field? name = entries'.field? name) :
    choice name ofName? unknown entries = choice name ofName? unknown entries' := by
  rw [choice, choice, h]

theorem checkConfig_congr (plugin : Except Defect Plugin)
    (h : entries.field? "config" = entries'.field? "config") :
    checkConfig plugin entries = checkConfig plugin entries' := by
  rw [checkConfig, checkConfig, h]

theorem defects_checkMapping_congr {check : Entries → Findings} {value value' : Value}
    (hcheck : ∀ entries entries', alike entries entries' →
      (check entries).defects = (check entries').defects)
    (h : value.MappingAlike alike value') :
    (checkMapping value check).defects = (checkMapping value' check).defects := by
  cases h with
  | same h => rw [h]
  | mapping hmap hmap' h =>
      simp only [checkMapping, hmap, hmap']
      exact hcheck _ _ h

section Items

variable {check : Value → Findings}
  (hcheck : ∀ item item', item.MappingAlike alike item' →
    (check item).defects = (check item').defects)
include hcheck

theorem defects_checkSequence_congr {value value' : Value} (h : value.ItemsAlike alike value') :
    (checkSequence value check).defects = (checkSequence value' check).defects := by
  cases h with
  | same h => rw [h]
  | items hseq hseq' h =>
      simp only [checkSequence, hseq, hseq']
      exact defects_ofItems_congr (h.imp hcheck)

theorem defects_checkAnyItems_congr
    (h : Entries.FieldAlike name (Value.ItemsAlike alike) entries entries') :
    (checkAnyItems name check entries).defects = (checkAnyItems name check entries').defects := by
  refine defects_under_congr _ ?_
  cases h with
  | absent h h' => rw [h, h']
  | present hfield hfield' h =>
      simp only [hfield, hfield']
      exact defects_checkSequence_congr hcheck h

theorem defects_checkSomeItems_congr
    (h : Entries.FieldAlike name (Value.ItemsAlike alike) entries entries') :
    (checkSomeItems name check entries).defects = (checkSomeItems name check entries').defects := by
  refine defects_under_congr _ ?_
  cases h with
  | absent h h' => rw [h, h']
  | present hfield hfield' h =>
      simp only [hfield, hfield']
      cases h with
      | same h => rw [h]
      | items hseq hseq' h =>
          cases h with
          | nil => rw [hseq, hseq']
          | cons hitem hitems =>
              simp only [hseq, hseq']
              exact defects_checkSequence_congr hcheck (.items hseq hseq' (.cons hitem hitems))

end Items

/-! ### Elements -/

theorem defects_checkAssertion_congr {value value' : Value}
    (h : value.MappingAlike AssertionAlike value') :
    (checkAssertion value).defects = (checkAssertion value').defects := by
  refine defects_checkMapping_congr (fun entries entries' h => ?_) h
  have hchosen : chosenAssertion entries' = chosenAssertion entries := choice_congr h.type.symm
  rw [hchosen]
  cases hkind : chosenAssertion entries with
  | error defect => rfl
  | ok kind =>
      have hfields := checkFields_congr (h.payload kind (chosenAssertion_eq_ok_iff.mp hkind))
      simp only [defects_append, defects_unknownKeys, hfields]

theorem defects_checkCapture_congr {value value' : Value}
    (h : value.MappingAlike CaptureAlike value') :
    (checkCapture value).defects = (checkCapture value').defects := by
  refine defects_checkMapping_congr (fun entries entries' h => ?_) h
  simp only [defects_append, defects_unknownKeys, checkFields_congr h]

theorem defects_checkStep_congr {value value' : Value} (h : value.MappingAlike StepAlike value') :
    (checkStep value).defects = (checkStep value').defects := by
  refine defects_checkMapping_congr (fun entries entries' h => ?_) h
  have hname : checkField entries nameRule = checkField entries' nameRule :=
    checkField_congr (h.fields "name" (by simp))
  have hplugin : chosenPlugin entries = chosenPlugin entries' :=
    choice_congr (h.fields "plugin" (by simp))
  have hconfig := checkConfig_congr (chosenPlugin entries') (h.fields "config" (by simp))
  have hassertions :=
    defects_checkAnyItems_congr (fun _ _ => defects_checkAssertion_congr) h.assertions
  have hcaptures := defects_checkAnyItems_congr (fun _ _ => defects_checkCapture_congr) h.captures
  simp only [defects_append, defects_unknownKeys, hname, hplugin, hconfig, hassertions, hcaptures]

theorem defects_checkHolder_congr {known : List String} {check : Value → Findings}
    (hfields : Entries.AgreeOn ["name", "description"] entries entries')
    (hitems : (checkSomeItems name check entries).defects
      = (checkSomeItems name check entries').defects) :
    (checkField entries nameRule ++ checkField entries descriptionRule ++ unknownKeys known entries
        ++ checkSomeItems name check entries).defects
      = (checkField entries' nameRule ++ checkField entries' descriptionRule
        ++ unknownKeys known entries' ++ checkSomeItems name check entries').defects := by
  have hname : checkField entries nameRule = checkField entries' nameRule :=
    checkField_congr (hfields "name" (by simp))
  have hdescription : checkField entries descriptionRule = checkField entries' descriptionRule :=
    checkField_congr (hfields "description" (by simp))
  simp only [defects_append, defects_unknownKeys, hname, hdescription, hitems]

theorem defects_checkTest_congr {value value' : Value} (h : value.MappingAlike TestAlike value') :
    (checkTest value).defects = (checkTest value').defects := by
  refine defects_checkMapping_congr (fun entries entries' h => ?_) h
  exact defects_checkHolder_congr h.fields
    (defects_checkSomeItems_congr (fun _ _ => defects_checkStep_congr) h.steps)

theorem defects_checkSuite_congr {document document' : Value} (h : document.Alike document') :
    (checkSuite document).defects = (checkSuite document').defects := by
  refine defects_checkMapping_congr (fun entries entries' h => ?_) h
  exact defects_checkHolder_congr h.fields
    (defects_checkSomeItems_congr (fun _ _ => defects_checkTest_congr) h.tests)

theorem violations_congr {document document' : Value} (h : document.Alike document') :
    violations document = violations document' := by
  rw [violations, violations, Findings.violations, Findings.violations, defects_checkSuite_congr h]

end Schema

/-! ### What is built -/

namespace Suite

variable {α β : Type} {value value' : Value}

theorem needField_congr (h : entries.field? name = entries'.field? name) :
    needField entries name = needField entries' name := by
  rw [needField, needField, h]

theorem textField_congr (h : entries.field? name = entries'.field? name) :
    textField entries name = textField entries' name := by
  rw [textField, textField, needField_congr h]

theorem nameField_congr (h : entries.field? "name" = entries'.field? "name") :
    nameField entries = nameField entries' := by
  rw [nameField, nameField, textField_congr h]

theorem needMapping_bind_congr {build : Entries → Built α}
    (hbuild : ∀ entries entries', alike entries entries' → build entries = build entries')
    (h : value.MappingAlike alike value') :
    needMapping value >>= build = needMapping value' >>= build := by
  cases h with
  | same h => rw [h]
  | mapping hmap hmap' h =>
      rw [needMapping_eq_ok_iff.mpr hmap, needMapping_eq_ok_iff.mpr hmap']
      exact hbuild _ _ h

theorem pick_congr {ofName? : String → Option α} {fault : String → BuildFault}
    {next next' : α → Built β} (hfield : entries.field? name = entries'.field? name)
    (hnext : ∀ text chosen, entries.HasText name text → ofName? text = some chosen →
      next chosen = next' chosen) :
    (textField entries name >>= fun text =>
        Built.atKey name (.ofOption (fault text) (ofName? text)) >>= next)
      = textField entries' name >>= fun text =>
        Built.atKey name (.ofOption (fault text) (ofName? text)) >>= next' := by
  rw [← textField_congr hfield]
  cases htext : textField entries name with
  | error error => rfl
  | ok text =>
      change (Built.atKey name (.ofOption (fault text) (ofName? text)) >>= next)
        = Built.atKey name (.ofOption (fault text) (ofName? text)) >>= next'
      cases hchosen : ofName? text with
      | none => rfl
      | some chosen => exact hnext text chosen (textField_eq_ok_iff.mp htext) hchosen

section Items

variable {build : Value → Built α}
  (hbuild : ∀ item item', item.MappingAlike alike item' → build item = build item')
include hbuild

theorem ofItems_congr {items items' : List Value} (start : Nat)
    (h : List.Forall₂ (Value.MappingAlike alike) items items') :
    Built.ofItems build start items = Built.ofItems build start items' := by
  induction h generalizing start with
  | nil => rfl
  | cons hitem hitems ih => rw [Built.ofItems, Built.ofItems, hbuild _ _ hitem, ih]

theorem someItems_congr (h : Entries.FieldAlike name (Value.ItemsAlike alike) entries entries') :
    someItems entries name build = someItems entries' name build := by
  unfold someItems needField
  cases h with
  | absent h h' => rw [h, h']
  | present hfield hfield' h =>
      rw [hfield, hfield']
      cases h with
      | same h => rw [h]
      | items hseq hseq' h =>
          change Built.atKey name (Built.ofOption .notSequence _ >>= .ofItems build 0)
            = Built.atKey name (Built.ofOption .notSequence _ >>= .ofItems build 0)
          rw [hseq, hseq']
          exact congrArg (Built.atKey name) (ofItems_congr hbuild 0 h)

theorem anyItems_congr (h : Entries.FieldAlike name (Value.ItemsAlike alike) entries entries') :
    anyItems entries name build = anyItems entries' name build := by
  unfold anyItems
  cases h with
  | absent h h' => rw [h, h']
  | present hfield hfield' h =>
      rw [hfield, hfield']
      cases h with
      | same h => rw [h]
      | items hseq hseq' h =>
          simp only [Option.bind_eq_bind, Option.bind_some, hseq, hseq', Option.getD_some]
          rw [ofItems_congr hbuild 0 h]

end Items

theorem buildAssertion_congr (h : value.MappingAlike AssertionAlike value') :
    buildAssertion value = buildAssertion value' := by
  refine needMapping_bind_congr (fun entries entries' h => ?_) h
  refine pick_congr h.type fun text kind htype hkind => ?_
  rw [AssertionKind.ofName?_eq_some_iff] at hkind
  subst hkind
  have hagree := h.payload kind htype
  cases kind with
  | statusCode =>
      have hexpected := needField_congr (hagree.field?_eq List.mem_cons_self)
      simp only [hexpected]
  | jsonPath =>
      have hpath := textField_congr (hagree.field?_eq List.mem_cons_self)
      have hexpected : entries.get? "expected" = entries'.get? "expected" :=
        hagree _ (List.mem_cons_of_mem _ List.mem_cons_self)
      simp only [hpath, hexpected]
  | header =>
      have hname := textField_congr (hagree.field?_eq List.mem_cons_self)
      have hexpected :=
        textField_congr (hagree.field?_eq (List.mem_cons_of_mem _ List.mem_cons_self))
      simp only [hname, hexpected]
  | bodyContains =>
      have hexpected := textField_congr (hagree.field?_eq List.mem_cons_self)
      simp only [hexpected]

theorem buildCapture_congr (h : value.MappingAlike CaptureAlike value') :
    buildCapture value = buildCapture value' := by
  refine needMapping_bind_congr (fun entries entries' h => ?_) h
  have hpath := textField_congr (h.field?_eq List.mem_cons_self)
  have hname := textField_congr (h.field?_eq (List.mem_cons_of_mem _ List.mem_cons_self))
  simp only [hpath, hname]

theorem buildStep_congr (h : value.MappingAlike StepAlike value') :
    buildStep value = buildStep value' := by
  refine needMapping_bind_congr (fun entries entries' h => ?_) h
  refine pick_congr (h.fields "plugin" (by simp)) fun text plugin _ _ => ?_
  have hname := nameField_congr (h.fields "name" (by simp))
  have hconfig := needField_congr (h.fields "config" (by simp))
  have hassertions := anyItems_congr (fun _ _ => buildAssertion_congr) h.assertions
  have hcaptures := anyItems_congr (fun _ _ => buildCapture_congr) h.captures
  simp only [hname, hconfig, hassertions, hcaptures]

theorem heading_congr (h : Entries.AgreeOn ["name", "description"] entries entries') :
    nameField entries = nameField entries' ∧ descriptionField entries = descriptionField entries' := by
  refine ⟨nameField_congr (h "name" (by simp)), ?_⟩
  rw [descriptionField, descriptionField, h "description" (by simp)]

theorem buildTest_congr (h : value.MappingAlike TestAlike value') :
    buildTest value = buildTest value' := by
  refine needMapping_bind_congr (fun entries entries' h => ?_) h
  obtain ⟨hname, hdescription⟩ := heading_congr h.fields
  have hsteps := someItems_congr (fun _ _ => buildStep_congr) h.steps
  simp only [hname, hdescription, hsteps]

theorem build_congr {document document' : Value} (h : document.Alike document') :
    build document = build document' := by
  refine needMapping_bind_congr (fun entries entries' h => ?_) h
  obtain ⟨hname, hdescription⟩ := heading_congr h.fields
  have htests := someItems_congr (fun _ _ => buildTest_congr) h.tests
  simp only [hname, hdescription, htests]

end Suite

/-- **Only what is read counts.** Documents that hold the same values where the format looks for them
have the same violations in the same order, and the build makes the same suite of them or gives up at
the same place for the same reason. -/
theorem validate_build_eq_of_alike {document document' : Value} (h : document.Alike document') :
    Schema.violations document = Schema.violations document'
      ∧ Schema.validate document = Schema.validate document'
      ∧ Suite.build document = Suite.build document' := by
  have hviolations := violations_congr h
  refine ⟨hviolations, ?_, Suite.build_congr h⟩
  rw [Schema.validate, Schema.validate, hviolations]

theorem validate_build_eq_of_alike_reordered :
    let settings : Value := .map [(.str "url", .str "u")]
    let expectation : Value := .map [(.str "type", .str "json_path"), (.str "path", .str " "),
      (.str "expected", .null)]
    let step : Value := .map [(.str "name", .str "s"), (.str "plugin", .str "http"),
      (.str "config", settings), (.str "assertions", .seq [expectation])]
    let test : Value := .map [(.str "name", .str "t"), (.str "steps", .seq [step])]
    let document : Value := .map [(.str "name", .str "suite"), (.str "tests", .seq [test])]
    let expectation' : Value := .map [(.str "name", .str "n"), (.str "expected", .null),
      (.str "type", .str "json_path"), (.str "path", .str " ")]
    let step' : Value := .map [(.str "assertions", .seq [expectation']), (.str "save", .null),
      (.str "config", settings), (.str "plugin", .str "http"), (.str "name", .str "s")]
    let test' : Value := .map [(.str "steps", .seq [step']), (.str "description", .null),
      (.str "name", .str "t")]
    let document' : Value := .map [(.str "version", .int 1), (.str "tests", .seq [test']),
      (.str "name", .str "suite")]
    document.Alike document' ∧ (Schema.violations document).length = 1
      ∧ Schema.violations document = Schema.violations document'
      ∧ Schema.validate document = Schema.validate document'
      ∧ Suite.build document = Suite.build document' := by
  intro settings expectation step test document expectation' step' test' document'
  have hexpectation : expectation.MappingAlike AssertionAlike expectation' := by
    refine .mapping rfl rfl ⟨rfl, fun kind htype => ?_⟩
    obtain rfl : kind = .jsonPath := AssertionKind.name_injective (htype.unique ⟨_, rfl, rfl⟩)
    simp only [Entries.AgreeUnder, assertionRules, List.forall_mem_cons]
    exact ⟨rfl, rfl, List.forall_mem_nil _⟩
  have hstep : step.MappingAlike StepAlike step' := by
    refine .mapping rfl rfl ⟨?_, ?_, .absent rfl rfl⟩
    · simp only [Entries.AgreeOn, List.forall_mem_cons]
      exact ⟨rfl, rfl, rfl, List.forall_mem_nil _⟩
    · exact .present rfl rfl (.items rfl rfl (.cons hexpectation .nil))
  have htest : test.MappingAlike TestAlike test' := by
    refine .mapping rfl rfl ⟨?_, .present rfl rfl (.items rfl rfl (.cons hstep .nil))⟩
    simp only [Entries.AgreeOn, List.forall_mem_cons]
    exact ⟨rfl, rfl, List.forall_mem_nil _⟩
  have hdocument : document.Alike document' := by
    refine .mapping rfl rfl ⟨?_, .present rfl rfl (.items rfl rfl (.cons htest .nil))⟩
    simp only [Entries.AgreeOn, List.forall_mem_cons]
    exact ⟨rfl, rfl, List.forall_mem_nil _⟩
  exact ⟨hdocument, by decide +kernel, validate_build_eq_of_alike hdocument⟩

end ApiSuite
