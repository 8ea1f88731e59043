import ApiSuite.Proofs.Schema.Findings
import ApiSuite.Proofs.Schema.Grammar
import ApiSuite.Schema.Check

/-!
# The check accepts the grammar

A check finds nothing in a value exactly when the value has the form that the grammar asks for there.
One statement for each check, from fields up to whole documents; those of the parts give that of the
whole, since what is found in a whole is what is found in its parts.
-/

namespace ApiSuite

theorem find?_name_eq_some_iff {α : Type} {all : List α} {name : α → String} {text : String} {a : α}
    (hall : ∀ a, all.find? (fun b => name b == name a) = some a) :
    all.find? (fun b => name b == text) = some a ↔ text = name a := by
  constructor
  · intro h
    have hname := List.find?_some h
    exact (beq_iff_eq.mp hname).symm
  · rintro rfl
    exact hall a

theorem Plugin.ofName?_eq_some_iff {text : String} {plugin : Plugin} :
    Plugin.ofName? text = some plugin ↔ text = plugin.name :=
  find?_name_eq_some_iff fun plugin => by cases plugin <;> decide

theorem AssertionKind.ofName?_eq_some_iff {text : String} {kind : AssertionKind} :
    AssertionKind.ofName? text = some kind ↔ text = kind.name :=
  find?_name_eq_some_iff fun kind => by cases kind <;> decide

theorem injective_of_ofName? {α : Type} {ofName? : String → Option α} {name : α → String}
    (hname : ∀ {text a}, ofName? text = some a ↔ text = name a) : Function.Injective name := by
  intro a a' h
  have hself := hname.mpr (Eq.refl (name a))
  rw [hname.mpr h] at hself
  exact (Option.some.inj hself).symm

theorem Plugin.name_injective : Function.Injective Plugin.name :=
  injective_of_ofName? Plugin.ofName?_eq_some_iff

theorem AssertionKind.name_injective : Function.Injective AssertionKind.name :=
  injective_of_ofName? AssertionKind.ofName?_eq_some_iff

namespace Schema

open Findings

variable {value : Value} {entries : Entries} {name : String}

/-! ### Values -/

theorem clean_checkMapping_iff {check : Entries → Findings} {form : Entries → Prop}
    (hcheck : ∀ entries, (check entries).Clean ↔ form entries) :
    (checkMapping value check).Clean ↔ value.IsMapping form := by
  unfold checkMapping Value.IsMapping
  split
  case h_1 entries hmap => simp [hmap, hcheck]
  case h_2 hmap => simp [hmap, not_clean_here]

theorem clean_checkSequence_iff {check : Value → Findings} {form : Value → Prop}
    (hcheck : ∀ item, (check item).Clean ↔ form item) :
    (checkSequence value check).Clean ↔ value.IsSequence form := by
  unfold checkSequence Value.IsSequence
  split
  case h_1 items hseq => simp [hseq, clean_ofItems_iff, hcheck]
  case h_2 hseq => simp [hseq, not_clean_here]

/-! ### Fields -/

theorem clean_checkField_iff {rule : FieldRule} :
    (checkField entries rule).Clean ↔
      (rule.required = true → ∃ value, rule.value? entries = some value) ∧
        ∀ value, rule.value? entries = some value → rule.shape.Admits value := by
  rw [checkField, clean_atKey_iff]
  cases hvalue : rule.value? entries with
  | none => cases rule.required <;> simp [clean_none, not_clean_here]
  | some value =>
      simp only [Option.some.injEq, forall_eq', ← Shape.check_eq_ok_iff]
      split <;> simp_all [clean_none, not_clean_here]

theorem clean_mandatory_iff {shape : Shape} :
    (checkField entries (.mandatory name shape)).Clean ↔ entries.Has name shape.Admits := by
  rw [clean_checkField_iff, Entries.Has]
  simp only [FieldRule.mandatory, FieldRule.value?, Bool.false_eq_true, if_false, forall_const]
  constructor
  · rintro ⟨⟨value, hvalue⟩, hadmits⟩
    exact ⟨value, hvalue, hadmits value hvalue⟩
  · rintro ⟨value, hvalue, hadmits⟩
    refine ⟨⟨value, hvalue⟩, fun value' hvalue' => ?_⟩
    rwa [Option.some.inj (hvalue'.symm.trans hvalue)]

theorem clean_elective_iff {shape : Shape} :
    (checkField entries (.elective name shape)).Clean ↔ entries.MayHave name shape.Admits := by
  rw [clean_checkField_iff, Entries.MayHave]
  simp [FieldRule.elective, FieldRule.value?]

theorem clean_nullable_iff :
    (checkField entries ⟨name, true, true, .any⟩).Clean ↔ ∃ value, entries.get? name = some value := by
  rw [clean_checkField_iff]
  simp [FieldRule.value?, Shape.Admits]

theorem clean_checkFields_nil : (checkFields [] entries).Clean := rfl

theorem clean_checkFields_cons_iff {rule : FieldRule} {rules : List FieldRule} :
    (checkFields (rule :: rules) entries).Clean ↔
      (checkField entries rule).Clean ∧ (checkFields rules entries).Clean :=
  clean_append_iff

theorem clean_unknownKeys (known : List String) : (unknownKeys known entries).Clean := rfl

theorem clean_checkKeys_iff :
    (checkKeys entries).Clean ↔ ∀ entry ∈ entries, ∃ key, entry.1.str? = some key := by
  simp [checkKeys, Clean, Option.ne_none_iff_exists']

theorem clean_checkSomeItems_iff {check : Value → Findings} {form : Value → Prop}
    (hcheck : ∀ item, (check item).Clean ↔ form item) :
    (checkSomeItems name check entries).Clean ↔
      entries.Has name fun value => value.IsSomeSequence form := by
  rw [checkSomeItems, clean_atKey_iff, Entries.Has]
  cases hfield : entries.field? name with
  | none => simp [not_clean_here]
  | some value =>
      simp only [Option.some.injEq, exists_eq_left', Value.IsSomeSequence]
      split
      case h_1 hempty => simp [hempty, not_clean_here]
      case h_2 hnot =>
        rw [clean_checkSequence_iff hcheck, Value.IsSequence]
        constructor
        · rintro ⟨items, hseq, hitems⟩
          exact ⟨items, hseq, fun hnil => hnot (hnil ▸ hseq), hitems⟩
        · rintro ⟨items, hseq, -, hitems⟩
          exact ⟨items, hseq, hitems⟩

theorem clean_checkAnyItems_iff {check : Value → Findings} {form : Value → Prop}
    (hcheck : ∀ item, (check item).Clean ↔ form item) :
    (checkAnyItems name check entries).Clean ↔
      entries.MayHave name fun value => value.IsSequence form := by
  rw [checkAnyItems, clean_atKey_iff, Entries.MayHave]
  cases hfield : entries.field? name with
  | none => simp [clean_none]
  | some value => simp [clean_checkSequence_iff hcheck]

/-! ### Choices -/

theorem choice_eq_ok_iff {α : Type} {ofName? : String → Option α} {unknown : String → Defect}
    {chosen : α} :
    choice name ofName? unknown entries = .ok chosen ↔
      ∃ text, entries.HasText name text ∧ ofName? text = some chosen := by
  unfold choice Entries.HasText Entries.Has
  cases hfield : entries.field? name with
  | none => simp
  | some value =>
      simp only [bind_eq_ok_iff, needText_eq_ok_iff, Option.some.injEq, exists_eq_left']
      constructor
      · rintro ⟨text, htext, hok⟩
        split at hok
        case h_1 a hname =>
          cases hok
          exact ⟨text, htext, hname⟩
        case h_2 => cases hok
      · rintro ⟨text, htext, hname⟩
        exact ⟨text, htext, by rw [hname]⟩

theorem chosenPlugin_eq_ok_iff {plugin : Plugin} :
    chosenPlugin entries = .ok plugin ↔ entries.HasText "plugin" plugin.name := by
  rw [chosenPlugin, choice_eq_ok_iff]
  simp [Plugin.ofName?_eq_some_iff]

theorem chosenAssertion_eq_ok_iff {kind : AssertionKind} :
    chosenAssertion entries = .ok kind ↔ entries.HasText "type" kind.name := by
  rw [chosenAssertion, choice_eq_ok_iff]
  simp [AssertionKind.ofName?_eq_some_iff]

/-! ### Parts of a document -/

theorem clean_configRules_iff {plugin : Plugin} :
    (checkFields (configRules plugin) entries).Clean ↔ IsSettings entries plugin := by
  cases plugin with
  | delay =>
      simp only [configRules, clean_checkFields_cons_iff, clean_checkFields_nil, and_true,
        clean_mandatory_iff]
      constructor
      · exact .delay
      · rintro (duration | _)
        exact duration
  | http =>
      simp only [configRules, clean_checkFields_cons_iff, clean_checkFields_nil, and_true,
        clean_mandatory_iff, clean_elective_iff]
      constructor
      · rintro ⟨url, method, headers, body⟩
        exact .http url method headers body
      · rintro (_ | ⟨url, method, headers, body⟩)
        exact ⟨url, method, headers, body⟩

theorem clean_checkConfig_iff {plugin : Plugin} :
    (checkConfig (.ok plugin) entries).Clean ↔
      entries.Has "config" fun value => value.IsMapping (IsConfig plugin) := by
  rw [checkConfig, clean_atKey_iff, Entries.Has]
  cases hfield : entries.field? "config" with
  | none => simp [not_clean_here]
  | some value =>
      simp only [Option.some.injEq, exists_eq_left']
      refine clean_checkMapping_iff fun settings => ?_
      rw [clean_append_iff, clean_append_iff, clean_checkKeys_iff, clean_configRules_iff]
      simp [IsConfig, clean_unknownKeys]

theorem clean_assertionRules_iff {kind : AssertionKind} :
    (checkFields (assertionRules kind) entries).Clean ↔ IsPayload entries kind := by
  cases kind with
  | statusCode =>
      simp only [assertionRules, clean_checkFields_cons_iff, clean_checkFields_nil, and_true,
        clean_mandatory_iff]
      constructor
      · exact .statusCode
      · rintro (expected | _)
        exact expected
  | jsonPath =>
      simp only [assertionRules, clean_checkFields_cons_iff, clean_checkFields_nil, and_true,
        clean_mandatory_iff, clean_nullable_iff]
      constructor
      · rintro ⟨path, expected⟩
        exact .jsonPath path expected
      · rintro (_ | ⟨path, expected⟩)
        exact ⟨path, expected⟩
  | header =>
      simp only [assertionRules, clean_checkFields_cons_iff, clean_checkFields_nil, and_true,
        clean_mandatory_iff]
      constructor
      · rintro ⟨name, expected⟩
        exact .header name expected
      · rintro (_ | _ | ⟨name, expected⟩)
        exact ⟨name, expected⟩
  | bodyContains =>
      simp only [assertionRules, clean_checkFields_cons_iff, clean_checkFields_nil, and_true,
        clean_mandatory_iff]
      constructor
      · exact .bodyContains
      · rintro (_ | _ | _ | expected)
        exact expected

theorem clean_checkAssertion_iff : (checkAssertion value).Clean ↔ value.IsMapping IsAssertion := by
  refine clean_checkMapping_iff fun entries => ?_
  cases hchosen : chosenAssertion entries with
  | error defect =>
      simp only [clean_atKey_iff, not_clean_here, false_iff]
      rintro ⟨kind, htype, -⟩
      rw [chosenAssertion_eq_ok_iff.mpr htype] at hchosen
      cases hchosen
  | ok kind =>
      simp only [clean_append_iff, clean_unknownKeys, and_true, clean_assertionRules_iff]
      constructor
      · intro hpayload
        exact ⟨kind, chosenAssertion_eq_ok_iff.mp hchosen, hpayload⟩
      · rintro ⟨kind', htype, hpayload⟩
        rw [chosenAssertion_eq_ok_iff.mpr htype] at hchosen
        cases hchosen
        exact hpayload

theorem clean_checkCapture_iff : (checkCapture value).Clean ↔ value.IsMapping IsCapture := by
  refine clean_checkMapping_iff fun entries => ?_
  simp only [captureRules, clean_append_iff, clean_unknownKeys, clean_checkFields_cons_iff,
    clean_checkFields_nil, and_true, clean_mandatory_iff]
  constructor
  · rintro ⟨jsonPath, name⟩
    exact ⟨jsonPath, name⟩
  · rintro ⟨jsonPath, name⟩
    exact ⟨jsonPath, name⟩

theorem clean_action_iff :
    (checkPlugin (chosenPlugin entries)).Clean ∧ (checkConfig (chosenPlugin entries) entries).Clean ↔
      ∃ plugin : Plugin, entries.HasText "plugin" plugin.name
        ∧ entries.Has "config" fun value => value.IsMapping (IsConfig plugin) := by
  cases hchosen : chosenPlugin entries with
  | error defect =>
      simp only [checkPlugin, clean_atKey_iff, not_clean_here, false_and, false_iff]
      rintro ⟨plugin, hplugin, -⟩
      rw [chosenPlugin_eq_ok_iff.mpr hplugin] at hchosen
      cases hchosen
  | ok plugin =>
      simp only [checkPlugin, clean_none, true_and, clean_checkConfig_iff]
      constructor
      · intro hconfig
        exact ⟨plugin, chosenPlugin_eq_ok_iff.mp hchosen, hconfig⟩
      · rintro ⟨plugin', hplugin, hconfig⟩
        rw [chosenPlugin_eq_ok_iff.mpr hplugin] at hchosen
        cases hchosen
        exact hconfig

theorem clean_checkStep_iff : (checkStep value).Clean ↔ value.IsMapping IsStep := by
  refine clean_checkMapping_iff fun entries => ?_
  simp only [clean_append_iff, clean_unknownKeys, and_true, nameRule, clean_mandatory_iff]
  rw [and_assoc (b := (checkPlugin _).Clean), clean_action_iff,
    clean_checkAnyItems_iff fun _ => clean_checkAssertion_iff,
    clean_checkAnyItems_iff fun _ => clean_checkCapture_iff]
  constructor
  · rintro ⟨⟨⟨name, action⟩, assertions⟩, captures⟩
    exact ⟨name, action, assertions, captures⟩
  · rintro ⟨name, action, assertions, captures⟩
    exact ⟨⟨⟨name, action⟩, assertions⟩, captures⟩

theorem clean_checkTest_iff : (checkTest value).Clean ↔ value.IsMapping IsTest := by
  refine clean_checkMapping_iff fun entries => ?_
  simp only [clean_append_iff, clean_unknownKeys, and_true, nameRule, descriptionRule,
    clean_mandatory_iff, clean_elective_iff, clean_checkSomeItems_iff fun _ => clean_checkStep_iff]
  constructor
  · rintro ⟨⟨name, description⟩, steps⟩
    exact ⟨name, description, steps⟩
  · rintro ⟨name, description, steps⟩
    exact ⟨⟨name, description⟩, steps⟩

theorem clean_checkSuite_iff : (checkSuite value).Clean ↔ value.IsMapping IsSuite := by
  refine clean_checkMapping_iff fun entries => ?_
  simp only [clean_append_iff, clean_unknownKeys, and_true, nameRule, descriptionRule,
    clean_mandatory_iff, clean_elective_iff, clean_checkSomeItems_iff fun _ => clean_checkTest_iff]
  constructor
  · rintro ⟨⟨name, description⟩, tests⟩
    exact ⟨name, description, tests⟩
  · rintro ⟨name, description, tests⟩
    exact ⟨⟨name, description⟩, tests⟩

/-! ### Documents -/

theorem validate_eq_ok_iff_clean {document : Value} :
    validate document = .ok () ↔ (checkSuite document).Clean := by
  unfold validate violations Findings.violations Clean
  split
  case h_1 hnone => simpa using hnone
  case h_2 hsome => simp_all

theorem validate_eq_error_iff {document : Value} {broken : List Violation} :
    validate document = .error broken ↔ violations document = broken ∧ broken ≠ [] := by
  unfold validate
  split
  case h_1 hnone =>
    simp only [hnone, reduceCtorEq, false_iff, not_and, not_not]
    exact Eq.symm
  case h_2 hsome =>
    simp only [Except.error.injEq]
    constructor
    · rintro rfl
      exact ⟨rfl, hsome⟩
    · rintro ⟨rfl, -⟩
      rfl

/-- **Acceptance is membership in the grammar.** A document is accepted exactly when it is a suite. -/
theorem validate_eq_ok_iff_isSuite (document : Value) :
    validate document = .ok () ↔ document.IsMapping IsSuite := by
  rw [validate_eq_ok_iff_clean, clean_checkSuite_iff]

end Schema

end ApiSuite
