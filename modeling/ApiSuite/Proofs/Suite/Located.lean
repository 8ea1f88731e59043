import ApiSuite.Parse
import ApiSuite.Proofs.Schema.Acceptance
import ApiSuite.Proofs.Suite.Built

/-!
# The check foresees the faults of the build

The check and the build walk through a document apart, the check by the tables of rules and the build
field by field in an order of its own. Still, wherever the build gives up, the check has found a
defect at that very place. So a document that was accepted is built, and reading a text with or
without building the suite fails in the same cases and with the same error.
-/

namespace ApiSuite

namespace Schema.Findings

variable {α β : Type} {found first second : Findings}

/-- If the build fails, then at a place where there is a defect. -/
def Locates (found : Findings) (built : Built α) : Prop :=
  ∀ error, built = .error error → ∃ defect, (error.path, defect) ∈ found.defects

theorem locates_ok (found : Findings) (a : α) : found.Locates (.ok a) := by
  intro error h
  cases h

theorem Locates.bind {built : Built α} {next : α → Built β} (hbuilt : found.Locates built)
    (hnext : ∀ a, built = .ok a → found.Locates (next a)) : found.Locates (built >>= next) := by
  intro error h
  obtain h | ⟨a, ha, h⟩ := bind_eq_error_iff.mp h
  · exact hbuilt error h
  · exact hnext a ha error h

theorem Locates.map {built : Built α} {f : α → β} (hbuilt : found.Locates built) :
    found.Locates (f <$> built) := by
  intro error h
  exact hbuilt error (map_eq_error_iff.mp h)

theorem Locates.left {built : Built α} (h : first.Locates built) :
    (first ++ second).Locates built := by
  intro error herror
  obtain ⟨defect, hdefect⟩ := h error herror
  exact ⟨defect, List.mem_append_left _ hdefect⟩

theorem Locates.right {built : Built α} (h : second.Locates built) :
    (first ++ second).Locates built := by
  intro error herror
  obtain ⟨defect, hdefect⟩ := h error herror
  exact ⟨defect, List.mem_append_right _ hdefect⟩

theorem Locates.atKey {name : String} {built : Built α} (h : found.Locates built) :
    (found.atKey name).Locates (Built.atKey name built) := by
  intro error herror
  obtain ⟨inner, hinner, rfl⟩ := Built.under_eq_error_iff.mp herror
  obtain ⟨defect, hdefect⟩ := h inner hinner
  exact ⟨defect, mem_defects_under.mpr ⟨inner.path, hdefect, rfl⟩⟩

theorem Locates.ofItems {check : Value → Findings} {build : Value → Built α}
    (h : ∀ item, (check item).Locates (build item)) (items : List Value) :
    (ofItems check items).Locates (Built.ofItems build 0 items) := by
  intro error herror
  obtain ⟨i, item, inner, hitem, hinner, hpath⟩ := Built.ofItems_eq_error herror
  obtain ⟨defect, hdefect⟩ := h item inner hinner
  rw [Nat.zero_add] at hpath
  exact ⟨defect, mem_defects_ofItems.mpr ⟨i, item, inner.path, hitem, hdefect, hpath⟩⟩

theorem Locates.ofField {name : String} {built : Built α}
    (hpath : ∀ error, built = .error error → error.path = FieldPath.root.key name)
    (hok : found.Clean → ∃ a, built = .ok a)
    (hdefects : ∀ entry ∈ found.defects, entry.1 = FieldPath.root.key name) :
    found.Locates built := by
  intro error herror
  cases hfound : found.defects with
  | nil =>
      obtain ⟨a, ha⟩ := hok hfound
      rw [ha] at herror
      cases herror
  | cons entry rest =>
      have hplace := hdefects entry (by simp [hfound])
      exact ⟨entry.2, by rw [hpath error herror, ← hplace]; exact List.mem_cons_self⟩

end Schema.Findings

namespace Suite

open Schema
open Schema.Findings (Locates locates_ok mem_defects_under)

variable {α β : Type} {entries : Entries} {name : String}

/-! ### Values and fields -/

theorem locates_mapping {check : Entries → Findings} {build : Entries → Built α}
    (h : ∀ entries, (check entries).Locates (build entries)) (value : Value) :
    (checkMapping value check).Locates (needMapping value >>= build) := by
  unfold checkMapping needMapping
  cases hmap : value.map? with
  | none =>
      intro error herror
      cases herror
      exact ⟨_, List.mem_singleton_self _⟩
  | some entries => exact h entries

theorem mem_defects_checkField {rule : FieldRule} :
    ∀ entry ∈ (checkField entries rule).defects, entry.1 = FieldPath.root.key rule.name := by
  rintro ⟨path, defect⟩ hmem
  obtain ⟨inner, hinner, rfl⟩ := mem_defects_under.mp hmem
  have hroot : inner = .root := by
    revert hinner
    split
    · split <;> simp +contextual [Findings.here, Findings.none]
    · split <;> simp +contextual [Findings.here, Findings.none]
  rw [hroot, FieldPath.under_root]

theorem locates_of_mem {rule : FieldRule} {rules : List FieldRule} {built : Built α}
    (hrule : rule ∈ rules) (h : (checkField entries rule).Locates built) :
    (checkFields rules entries).Locates built := by
  intro error herror
  obtain ⟨defect, hdefect⟩ := h error herror
  refine ⟨defect, ?_⟩
  rw [checkFields, Findings.defects_join, List.mem_flatMap]
  exact ⟨_, List.mem_map_of_mem hrule, hdefect⟩

theorem locates_textField {shape : Shape}
    (htext : ∀ value, shape.Admits value → ∃ s, value.str? = some s) :
    (checkField entries (.mandatory name shape)).Locates (textField entries name) := by
  refine Locates.ofField (fun _ => textField_eq_error) ?_ mem_defects_checkField
  intro hclean
  obtain ⟨value, hfield, hadmits⟩ := clean_mandatory_iff.mp hclean
  obtain ⟨s, hs⟩ := htext value hadmits
  exact ⟨s, textField_eq_ok_iff.mpr ⟨value, hfield, hs⟩⟩

theorem locates_nameField : (checkField entries nameRule).Locates (nameField entries) :=
  Locates.map (locates_textField Value.IsText.exists_str?)

theorem locates_someItems {check : Value → Findings} {build : Value → Built α}
    (h : ∀ item, (check item).Locates (build item)) :
    (checkSomeItems name check entries).Locates (someItems entries name build) := by
  unfold checkSomeItems someItems needField
  cases hfield : entries.field? name with
  | none =>
      intro error herror
      cases herror
      exact ⟨_, List.mem_singleton_self _⟩
  | some value =>
      change Locates _ (Built.atKey name (Built.ofOption .notSequence value.seq? >>= .ofItems build 0))
      refine Locates.atKey ?_
      simp only [checkSequence]
      cases hseq : value.seq? with
      | none =>
          intro error herror
          cases herror
          exact ⟨_, List.mem_singleton_self _⟩
      | some items =>
          cases items with
          | nil =>
              -- No items is a defect, but nothing that the build gives up at.
              exact locates_ok _ []
          | cons item items => exact Locates.ofItems h (item :: items)

theorem locates_anyItems {check : Value → Findings} {build : Value → Built α}
    (h : ∀ item, (check item).Locates (build item)) :
    (checkAnyItems name check entries).Locates (anyItems entries name build) := by
  refine Locates.atKey ?_
  cases hfield : entries.field? name with
  | none => exact locates_ok _ []
  | some value =>
      simp only [checkSequence, Option.bind_eq_bind, Option.bind_some]
      cases hseq : value.seq? with
      | none => exact locates_ok _ []
      | some items => exact Locates.ofItems h items

/-! ### Choices

The check looks up what a name stands for once; the build reads the text and looks it up in turn. -/

theorem pick_of_choice_ok {ofName? : String → Option α} {unknown : String → Defect}
    {fault : String → BuildFault} {next : α → Built β} {chosen : α}
    (h : choice name ofName? unknown entries = .ok chosen) :
    (textField entries name >>= fun text =>
      Built.atKey name (.ofOption (fault text) (ofName? text)) >>= next) = next chosen := by
  obtain ⟨text, htext, hname⟩ := choice_eq_ok_iff.mp h
  rw [textField_eq_ok_iff.mpr htext]
  change (Built.atKey name (.ofOption (fault text) (ofName? text)) >>= next) = next chosen
  rw [hname]
  rfl

theorem locates_pick {ofName? : String → Option α} {unknown : String → Defect}
    {fault : String → BuildFault} {next : α → Built β} {defect : Defect}
    (h : choice name ofName? unknown entries = .error defect) :
    (Findings.atKey name (.here defect)).Locates
      (textField entries name >>= fun text =>
        Built.atKey name (.ofOption (fault text) (ofName? text)) >>= next) := by
  intro error herror
  refine ⟨defect, mem_defects_under.mpr ⟨.root, List.mem_singleton_self _, ?_⟩⟩
  rw [FieldPath.under_root]
  obtain hread | ⟨text, hread, herror⟩ := bind_eq_error_iff.mp herror
  · exact textField_eq_error hread
  · cases hname : ofName? text with
    | none =>
        rw [hname, Built.ofOption, Built.atKey_fail] at herror
        cases herror
        rfl
    | some chosen =>
        rw [choice_eq_ok_iff.mpr ⟨text, textField_eq_ok_iff.mp hread, hname⟩] at h
        cases h

/-! ### Parts of a document -/

theorem locates_statusCode :
    (checkField entries (.mandatory "expected" .statusCode)).Locates
      (do
        let expected ← needField entries "expected"
        match expected.nat? with
        | some code =>
          if code < UInt16.size then return Assertion.statusCode (UInt16.ofNat code)
          else .atKey "expected" (.fail .codeOutOfRange)
        | none => .atKey "expected" (.fail .codeOutOfRange)) := by
  refine Locates.ofField ?_ ?_ mem_defects_checkField
  · intro error herror
    obtain hfield | ⟨value, -, hcode⟩ := bind_eq_error_iff.mp herror
    · exact needField_eq_error hfield
    · rw [Built.atKey_fail] at hcode
      split at hcode
      · split at hcode <;> cases hcode
        rfl
      · cases hcode
        rfl
  · intro hclean
    obtain ⟨value, hfield, code, hcode, hlow, hhigh⟩ := clean_mandatory_iff.mp hclean
    have hsize : code < UInt16.size := by
      rw [UInt16.size]
      omega
    refine ⟨.statusCode (UInt16.ofNat code), bind_eq_ok_iff.mpr ⟨value, ?_, ?_⟩⟩
    · exact needField_eq_ok_iff.mpr hfield
    · rw [hcode]
      exact if_pos hsize

theorem locates_expectedValue :
    (checkField entries ⟨"expected", true, true, .any⟩).Locates
      (Built.atKey "expected" (.ofOption .missing (entries.get? "expected"))) := by
  refine Locates.ofField ?_ ?_ mem_defects_checkField
  · intro error herror
    cases hget : entries.get? "expected" with
    | none =>
        rw [hget, Built.ofOption, Built.atKey_fail] at herror
        cases herror
        rfl
    | some value =>
        rw [hget] at herror
        cases herror
  · intro hclean
    obtain ⟨value, hget⟩ := clean_nullable_iff.mp hclean
    exact ⟨value, by rw [Built.atKey_eq_ok_iff, Built.ofOption_eq_ok_iff, hget]⟩

theorem locates_buildAssertion (value : Value) :
    (checkAssertion value).Locates (buildAssertion value) := by
  refine locates_mapping (fun entries => ?_) value
  cases hchosen : chosenAssertion entries with
  | error defect => exact locates_pick hchosen
  | ok kind =>
      refine Locates.left ?_
      rw [pick_of_choice_ok hchosen]
      cases kind with
      | statusCode => exact locates_of_mem List.mem_cons_self locates_statusCode
      | jsonPath =>
          refine Locates.bind ?_ fun path _ => Locates.bind ?_ fun expected _ => locates_ok _ _
          · exact locates_of_mem List.mem_cons_self (locates_textField Value.IsText.exists_str?)
          · exact locates_of_mem (List.mem_cons_of_mem _ List.mem_cons_self) locates_expectedValue
      | header =>
          refine Locates.bind ?_ fun name _ => Locates.bind ?_ fun expected _ => locates_ok _ _
          · exact locates_of_mem List.mem_cons_self (locates_textField Value.IsText.exists_str?)
          · exact locates_of_mem (List.mem_cons_of_mem _ List.mem_cons_self)
              (locates_textField Value.IsText.exists_str?)
      | bodyContains =>
          refine Locates.bind ?_ fun expected _ => locates_ok _ _
          exact locates_of_mem List.mem_cons_self (locates_textField Value.IsText.exists_str?)

theorem locates_buildCapture (value : Value) :
    (checkCapture value).Locates (buildCapture value) := by
  refine locates_mapping (fun entries => Locates.left ?_) value
  refine Locates.bind ?_ fun jsonPath _ => Locates.bind ?_ fun name _ => locates_ok _ _
  · exact locates_of_mem List.mem_cons_self (locates_textField Value.IsText.exists_str?)
  · exact locates_of_mem (List.mem_cons_of_mem _ List.mem_cons_self)
      (locates_textField Value.IsText.exists_str?)

theorem collectSettings_eq_error {config : Config} {error : BuildError}
    (h : collectSettings config entries = .error error) :
    error.path = .root ∧ ∃ entry ∈ entries, entry.1.str? = none := by
  induction entries generalizing config with
  | nil => cases h
  | cons entry rest ih =>
      obtain ⟨key, value⟩ := entry
      rw [collectSettings] at h
      cases hkey : key.str? with
      | none =>
          rw [hkey] at h
          cases h
          exact ⟨rfl, (key, value), List.mem_cons_self, hkey⟩
      | some name =>
          rw [hkey] at h
          obtain ⟨hpath, entry, hentry, hnone⟩ := ih h
          exact ⟨hpath, entry, List.mem_cons_of_mem _ hentry, hnone⟩

theorem locates_buildConfig (plugin : Plugin) (value : Value) {rest : Entries → Findings} :
    (checkMapping value fun settings => checkKeys settings ++ rest settings).Locates
      (buildConfig plugin value) := by
  refine locates_mapping (fun settings => Locates.left (Locates.map ?_)) value
  intro error herror
  obtain ⟨hpath, entry, hentry, hnone⟩ := collectSettings_eq_error herror
  refine ⟨.keyNotText entry.1, ?_⟩
  rw [hpath]
  exact List.mem_map.mpr ⟨entry, List.mem_filter.mpr ⟨hentry, by simp [hnone]⟩, rfl⟩

theorem locates_config (plugin : Plugin) :
    (checkConfig (.ok plugin) entries).Locates
      (needField entries "config" >>= fun settings =>
        Built.atKey "config" (buildConfig plugin settings)) := by
  unfold checkConfig needField
  cases hfield : entries.field? "config" with
  | none =>
      intro error herror
      cases herror
      exact ⟨_, List.mem_singleton_self _⟩
  | some value => exact Locates.atKey (locates_buildConfig plugin value)

theorem locates_buildStep (value : Value) : (checkStep value).Locates (buildStep value) := by
  refine locates_mapping (fun entries => ?_) value
  cases hchosen : chosenPlugin entries with
  | error defect =>
      exact Locates.left (Locates.left (Locates.left (Locates.right (locates_pick hchosen))))
  | ok plugin =>
      rw [pick_of_choice_ok hchosen, ← bind_assoc]
      refine Locates.bind ?_ fun config _ => Locates.bind ?_ fun assertions _ =>
        Locates.bind ?_ fun captures _ => Locates.bind ?_ fun name _ => locates_ok _ _
      · exact Locates.left (Locates.left (Locates.right (locates_config plugin)))
      · exact Locates.left (Locates.right (locates_anyItems locates_buildAssertion))
      · exact Locates.right (locates_anyItems locates_buildCapture)
      · exact Locates.left (Locates.left (Locates.left (Locates.left (Locates.left
          locates_nameField))))

theorem locates_buildTest (value : Value) : (checkTest value).Locates (buildTest value) := by
  refine locates_mapping (fun entries => ?_) value
  refine Locates.bind ?_ fun steps _ => Locates.bind ?_ fun name _ => locates_ok _ _
  · exact Locates.right (locates_someItems locates_buildStep)
  · exact Locates.left (Locates.left (Locates.left locates_nameField))

theorem locates_build (document : Value) : (checkSuite document).Locates (build document) := by
  refine locates_mapping (fun entries => ?_) document
  refine Locates.bind ?_ fun tests _ => Locates.bind ?_ fun name _ => locates_ok _ _
  · exact Locates.right (locates_someItems locates_buildTest)
  · exact Locates.left (Locates.left (Locates.left locates_nameField))

/-! ### Documents and texts -/

theorem mem_violations_of_build_eq_error {document : Value} {error : BuildError}
    (h : build document = .error error) :
    ∃ violation ∈ violations document, violation.path = error.path := by
  obtain ⟨defect, hdefect⟩ := locates_build document error h
  exact ⟨⟨error.path, defect.message⟩, List.mem_map.mpr ⟨_, hdefect, rfl⟩, rfl⟩

theorem build_of_validate_eq_ok {document : Value} (h : Schema.validate document = .ok ()) :
    ∃ suite, build document = .ok suite := by
  cases hbuild : build document with
  | ok suite => exact ⟨suite, rfl⟩
  | error error =>
      obtain ⟨violation, hmem, -⟩ := mem_violations_of_build_eq_error hbuild
      rw [validate_eq_ok_iff_clean] at h
      rw [violations, Findings.violations, h] at hmem
      cases hmem

end Suite

/-- **Every fault of the build is foreseen.** Where the build of a document fails, whether or not it
was checked before, the check refuses the document and reports a violation at that very place. So a
text that is read and checked is built, and with or without building it fails with the same error. -/
theorem build_faults_foreseen :
    (∀ document error, Suite.build document = .error error →
      ∃ broken, Schema.validate document = .error broken
        ∧ ∃ violation ∈ broken, violation.path = error.path)
    ∧ ∀ bytes, (∀ error, parse bytes ≠ .error (.unbuilt error))
      ∧ (validate bytes = .ok () ↔ ∃ suite, parse bytes = .ok suite)
      ∧ ∀ error, validate bytes = .error error ↔ parse bytes = .error error := by
  refine ⟨fun document error hbuild => ?_, fun bytes => ?_⟩
  · obtain ⟨violation, hmem, hpath⟩ := Suite.mem_violations_of_build_eq_error hbuild
    refine ⟨Schema.violations document, ?_, violation, hmem, hpath⟩
    exact Schema.validate_eq_error_iff.mpr ⟨rfl, List.ne_nil_of_mem hmem⟩
  · cases hread : Yaml.read bytes with
    | error error =>
        have hvalidate : validate bytes = .error (.malformed error) := by
          rw [validate, hread]
          rfl
        have hparse : parse bytes = .error (.malformed error) := by
          rw [parse, hread]
          rfl
        simp [hvalidate, hparse]
    | ok document =>
        have hvalidate : validate bytes = (Schema.validate document).mapError .rejected := by
          rw [validate, hread]
          rfl
        have hparse : parse bytes =
            (validate bytes >>= fun _ => (Suite.build document).mapError .unbuilt) := by
          rw [parse, hvalidate, hread]
          rfl
        cases hresult : Schema.validate document with
        | error broken =>
            have hrefused : validate bytes = .error (.rejected broken) := by
              rw [hvalidate, hresult]
              rfl
            have hunparsed : parse bytes = .error (.rejected broken) := by
              rw [hparse, hrefused]
              rfl
            simp [hrefused, hunparsed]
        | ok _ =>
            obtain ⟨suite, hbuild⟩ := Suite.build_of_validate_eq_ok hresult
            have haccepted : validate bytes = .ok () := by
              rw [hvalidate, hresult]
              rfl
            have hparsed : parse bytes = .ok suite := by
              rw [hparse, haccepted, hbuild]
              rfl
            simp [haccepted, hparsed]

theorem build_faults_foreseen_unknown_plugin :
    let step : Value := .map [(.str "name", .str "s"), (.str "plugin", .str "ftp")]
    let test : Value := .map [(.str "name", .str "t"), (.str "steps", .seq [step])]
    let document : Value := .map [(.str "tests", .seq [test])]
    let place : FieldPath := ⟨[.key "tests", .index 0, .key "steps", .index 0, .key "plugin"]⟩
    Suite.build document = .error ⟨place, .unknownPlugin "ftp"⟩
      ∧ ∃ broken, Schema.validate document = .error broken
        ∧ ∃ violation ∈ broken, violation.path = place := by
  intro step test document place
  have hbuild : Suite.build document = .error ⟨place, .unknownPlugin "ftp"⟩ := by rfl
  exact ⟨hbuild, build_faults_foreseen.1 document _ hbuild⟩

end ApiSuite
