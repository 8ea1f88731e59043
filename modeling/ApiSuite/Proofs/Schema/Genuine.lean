import ApiSuite.Proofs.Schema.Acceptance
import ApiSuite.Proofs.Schema.Elements
import ApiSuite.Proofs.Schema.Messages

/-!
# Violations are genuine

What the format asks for at the places of a document, and what it means that a document falls short
of it there, said without the check. Whatever is reported is such a shortcoming: a field that is
missing from a mapping that has to have it, or a value at the very path that is reported. The proof
goes through the check once and carries along that what is checked lies at the path so far.
-/

namespace ApiSuite.Schema

/-- What may be asked of a value. -/
inductive Demand where
  | mapping
  | sequence
  | someItems
  | textKeys
  | plugin
  | assertionKind
  | shape (shape : Shape)

/-- The value does not meet the demand, in the way that the defect says. -/
inductive Demand.Breaks (value : Value) : Demand → Defect → Prop where
  | mapping (h : value.map? = none) : Breaks value .mapping (.mismatch .mapping value)
  | sequence (h : value.seq? = none) : Breaks value .sequence (.mismatch .sequence value)
  | someItems (h : value.seq? = some []) : Breaks value .someItems .noItems
  | textKeys {entries : Entries} {entry : Value × Value} (hmap : value.map? = some entries)
      (hentry : entry ∈ entries) (hkey : entry.1.str? = none) :
      Breaks value .textKeys (.keyNotText entry.1)
  | plugin {text : String} (htext : value.str? = some text)
      (hunknown : ∀ plugin : Plugin, plugin.name ≠ text) :
      Breaks value .plugin (.unknownPlugin text)
  | assertionKind {text : String} (htext : value.str? = some text)
      (hunknown : ∀ kind : AssertionKind, kind.name ≠ text) :
      Breaks value .assertionKind (.unknownAssertion text)
  | shape {shape : Shape} {defect : Defect} (hrefused : ¬ shape.Admits value)
      (hdefect : shape.check value = .error defect) : Breaks value (.shape shape) defect

/-- The mapping at the path has a field under the rule. For settings and assertions it depends on the
plugin and the type that are written beside them. -/
inductive Ruled (document : Value) : FieldPath → FieldRule → Prop where
  | element {element : Element} {path : FieldPath} {rule : FieldRule} (hplace : Place element path)
      (hrule : rule ∈ element.rules) : Ruled document path rule
  | setting {path : FieldPath} {entries : Entries} {plugin : Plugin} {rule : FieldRule}
      (hplace : Place .step path) (hentries : document.mappingAt? path = some entries)
      (hplugin : entries.HasText "plugin" plugin.name) (hrule : rule ∈ configRules plugin) :
      Ruled document (path.key "config") rule
  | payload {path : FieldPath} {entries : Entries} {kind : AssertionKind} {rule : FieldRule}
      (hplace : Place .assertion path) (hentries : document.mappingAt? path = some entries)
      (hkind : entries.HasText "type" kind.name) (hrule : rule ∈ assertionRules kind) :
      Ruled document path rule

/-- The mapping at the path has to have the field. -/
inductive Requires (document : Value) : FieldPath → String → Prop where
  | tests {path : FieldPath} (hplace : Place .suite path) : Requires document path "tests"
  | steps {path : FieldPath} (hplace : Place .test path) : Requires document path "steps"
  | plugin {path : FieldPath} (hplace : Place .step path) : Requires document path "plugin"
  | config {path : FieldPath} (hplace : Place .step path) : Requires document path "config"
  | type {path : FieldPath} (hplace : Place .assertion path) : Requires document path "type"
  | field {path : FieldPath} {rule : FieldRule} (hruled : Ruled document path rule)
      (hrequired : rule.required = true) : Requires document path rule.name

/-- The demand is made of whatever lies at the path. -/
inductive Asks (document : Value) : FieldPath → Demand → Prop where
  | element {element : Element} {path : FieldPath} (hplace : Place element path) :
      Asks document path .mapping
  | items {whole element : Element} {name : String} {path : FieldPath}
      (hholds : whole.Holds name element) (hplace : Place whole path) :
      Asks document (path.key name) .sequence
  | tests {path : FieldPath} (hplace : Place .suite path) :
      Asks document (path.key "tests") .someItems
  | steps {path : FieldPath} (hplace : Place .test path) :
      Asks document (path.key "steps") .someItems
  | pluginText {path : FieldPath} (hplace : Place .step path) :
      Asks document (path.key "plugin") (.shape .text)
  | plugin {path : FieldPath} (hplace : Place .step path) :
      Asks document (path.key "plugin") .plugin
  | config {path : FieldPath} (hplace : Place .step path) :
      Asks document (path.key "config") .mapping
  | settings {path : FieldPath} (hplace : Place .step path) :
      Asks document (path.key "config") .textKeys
  | typeText {path : FieldPath} (hplace : Place .assertion path) :
      Asks document (path.key "type") (.shape .text)
  | type {path : FieldPath} (hplace : Place .assertion path) :
      Asks document (path.key "type") .assertionKind
  | field {path : FieldPath} {rule : FieldRule} (hruled : Ruled document path rule) :
      Asks document (path.key rule.name) (.shape rule.shape)

/-- No value is there for the field. It is absent or null, and absent if it is what an assertion
expects at a path, since a null is a value there. -/
def Lacks (entries : Entries) (path : FieldPath) (name : String) : Prop :=
  entries.field? name = none ∧
    (Place .assertion path → entries.HasText "type" AssertionKind.jsonPath.name →
      name = "expected" → entries.get? name = none)

/-- A defect that the document has at this path. -/
inductive Genuine (document : Value) : FieldPath → Defect → Prop where
  | missing {path : FieldPath} {name : String} {entries : Entries}
      (hrequires : Requires document path name) (hentries : document.mappingAt? path = some entries)
      (hlacks : Lacks entries path name) : Genuine document (path.key name) (.missing name)
  | broken {path : FieldPath} {value : Value} {demand : Demand} {defect : Defect}
      (hvalue : document.at? path = some value) (hasks : Asks document path demand)
      (hbreaks : demand.Breaks value defect) : Genuine document path defect

/-- Every defect that was found in what lies at `base` is one that the document has. -/
def Findings.GenuineAt (found : Findings) (document : Value) (base : FieldPath) : Prop :=
  ∀ entry ∈ found.defects, Genuine document (base.under entry.1) entry.2

variable {document value : Value} {entries : Entries} {path : FieldPath} {name : String}

namespace Findings

theorem genuine_none : Findings.none.GenuineAt document path := by
  intro entry hentry
  cases hentry

theorem genuine_here {defect : Defect} (h : Genuine document path defect) :
    (here defect).GenuineAt document path := by
  intro entry hentry
  obtain rfl := List.mem_singleton.mp hentry
  rwa [FieldPath.under_root]

theorem genuine_unknownKeys (known : List String) (entries : Entries) :
    (unknownKeys known entries).GenuineAt document path := by
  intro entry hentry
  cases hentry

theorem GenuineAt.append {first second : Findings} (hfirst : first.GenuineAt document path)
    (hsecond : second.GenuineAt document path) : (first ++ second).GenuineAt document path := by
  intro entry hentry
  obtain hentry | hentry := List.mem_append.mp hentry
  · exact hfirst entry hentry
  · exact hsecond entry hentry

theorem genuine_under {base : FieldPath} {found : Findings}
    (h : found.GenuineAt document (path.under base)) :
    (found.under base).GenuineAt document path := by
  rintro ⟨inner, defect⟩ hentry
  obtain ⟨rest, hrest, rfl⟩ := mem_defects_under.mp hentry
  rw [← FieldPath.under_assoc]
  exact h _ hrest

theorem genuine_atKey {found : Findings} (h : found.GenuineAt document (path.key name)) :
    (found.atKey name).GenuineAt document path :=
  genuine_under h

theorem genuine_ofItems {check : Value → Findings} {items : List Value}
    (h : ∀ i item, items[i]? = some item → (check item).GenuineAt document (path.index i)) :
    (ofItems check items).GenuineAt document path := by
  rintro ⟨inner, defect⟩ hentry
  obtain ⟨i, item, rest, hitem, hrest, rfl⟩ := mem_defects_ofItems.mp hentry
  rw [← FieldPath.under_assoc]
  exact h i item hitem _ hrest

end Findings

open Findings hiding none

/-! ### Values and fields -/

theorem at?_key_of_get? (hentries : document.mappingAt? path = some entries)
    (hget : entries.get? name = some value) : document.at? (path.key name) = some value := by
  rw [Value.at?_key, hentries, Option.bind_some, hget]

theorem get?_of_field? (h : entries.field? name = some value) : entries.get? name = some value :=
  Option.eq_some_of_filter_eq_some h

theorem get?_of_value? {rule : FieldRule} (h : rule.value? entries = some value) :
    entries.get? rule.name = some value := by
  unfold FieldRule.value? at h
  split at h
  · exact h
  · exact get?_of_field? h

theorem at?_key_of_field? (hentries : document.mappingAt? path = some entries)
    (hfield : entries.field? name = some value) : document.at? (path.key name) = some value :=
  at?_key_of_get? hentries (get?_of_field? hfield)

theorem genuine_checkMapping {check : Entries → Findings}
    (hvalue : document.at? path = some value) (hasks : Asks document path .mapping)
    (h : ∀ entries, document.mappingAt? path = some entries →
      (check entries).GenuineAt document path) :
    (checkMapping value check).GenuineAt document path := by
  unfold checkMapping
  cases hmap : value.map? with
  | none => exact genuine_here (.broken hvalue hasks (.mapping hmap))
  | some entries => exact h entries (by rw [Value.mappingAt?, hvalue]; exact hmap)

theorem genuine_checkSequence {check : Value → Findings} (hvalue : document.at? path = some value)
    (hasks : Asks document path .sequence)
    (h : ∀ i item, document.at? (path.index i) = some item →
      (check item).GenuineAt document (path.index i)) :
    (checkSequence value check).GenuineAt document path := by
  unfold checkSequence
  cases hseq : value.seq? with
  | none => exact genuine_here (.broken hvalue hasks (.sequence hseq))
  | some items =>
      refine genuine_ofItems fun i item hitem => h i item ?_
      rw [Value.at?_index hvalue hseq, hitem]

theorem lacks_of_field? (h : entries.field? name = none) (hname : name ≠ "expected") :
    Lacks entries path name :=
  ⟨h, fun _ _ hexpected => absurd hexpected hname⟩

/-- Only the value that an assertion expects at a path may be null, and its rule is the one by which
a null is a value. -/
theorem lacks_of_value? {rule : FieldRule} (hruled : Ruled document path rule)
    (hentries : document.mappingAt? path = some entries) (h : rule.value? entries = none) :
    Lacks entries path rule.name := by
  constructor
  · unfold FieldRule.value? at h
    split at h
    · rw [Entries.field?, h, Option.filter_none]
    · exact h
  · intro hplace htype hname
    cases hruled with
    | element _ hrule => exact absurd hname (Element.name_ne_expected rule hrule)
    | setting _ _ _ hrule => exact absurd hname (name_ne_expected_of_mem_configRules rule hrule)
    | payload _ hentries' hkind hrule =>
        obtain rfl := Option.some.inj (hentries.symm.trans hentries')
        obtain rfl := AssertionKind.name_injective (hkind.unique htype)
        have hnullable := nullable_of_mem_assertionRules rule hrule hname
        rwa [FieldRule.value?, if_pos hnullable] at h

theorem genuine_checkField {rule : FieldRule} (hruled : Ruled document path rule)
    (hentries : document.mappingAt? path = some entries) :
    (checkField entries rule).GenuineAt document path := by
  refine genuine_atKey ?_
  cases hvalue : rule.value? entries with
  | none =>
      by_cases hrequired : rule.required = true
      · have hlacks := lacks_of_value? hruled hentries hvalue
        simp only [hrequired, if_true]
        exact genuine_here (.missing (.field hruled hrequired) hentries hlacks)
      · simp only [hrequired]
        exact genuine_none
  | some value =>
      have hplace := at?_key_of_get? hentries (get?_of_value? hvalue)
      cases hcheck : rule.shape.check value with
      | ok _ =>
          simp only [hcheck]
          exact genuine_none
      | error defect =>
          simp only [hcheck]
          have hrefused : ¬ rule.shape.Admits value := by
            rw [← Shape.check_eq_ok_iff, hcheck]
            exact nofun
          exact genuine_here (.broken hplace (.field hruled) (.shape hrefused hcheck))

theorem genuine_checkFields {rules : List FieldRule}
    (hruled : ∀ rule ∈ rules, Ruled document path rule)
    (hentries : document.mappingAt? path = some entries) :
    (checkFields rules entries).GenuineAt document path := by
  induction rules with
  | nil => exact genuine_none
  | cons rule rules ih =>
      obtain ⟨hrule, hrules⟩ := List.forall_mem_cons.mp hruled
      exact (genuine_checkField hrule hentries).append (ih hrules)

/-! ### Sequences of elements -/

section Items

variable {whole element : Element} {check : Value → Findings}

theorem genuine_sequenceField (hentries : document.mappingAt? path = some entries)
    (hholds : whole.Holds name element) (hplace : Place whole path)
    (h : ∀ {path value}, Place element path → document.at? path = some value →
      (check value).GenuineAt document path)
    (hfield : entries.field? name = some value) :
    (checkSequence value check).GenuineAt document (path.key name) := by
  refine genuine_checkSequence (at?_key_of_field? hentries hfield) (.items hholds hplace) ?_
  intro i item hitem
  exact h (.item hholds hplace i) hitem

theorem genuine_checkAnyItems (hentries : document.mappingAt? path = some entries)
    (hholds : whole.Holds name element) (hplace : Place whole path)
    (h : ∀ {path value}, Place element path → document.at? path = some value →
      (check value).GenuineAt document path) :
    (checkAnyItems name check entries).GenuineAt document path := by
  refine genuine_atKey ?_
  cases hfield : entries.field? name with
  | none => exact genuine_none
  | some value => exact genuine_sequenceField hentries hholds hplace h hfield

theorem genuine_checkSomeItems (hentries : document.mappingAt? path = some entries)
    (hholds : whole.Holds name element) (hplace : Place whole path)
    (h : ∀ {path value}, Place element path → document.at? path = some value →
      (check value).GenuineAt document path)
    (hrequires : Requires document path name)
    (hasks : Asks document (path.key name) .someItems) :
    (checkSomeItems name check entries).GenuineAt document path := by
  refine genuine_atKey ?_
  cases hfield : entries.field? name with
  | none =>
      have hlacks : Lacks entries path name := lacks_of_field? hfield hholds.name_ne_expected
      exact genuine_here (.missing hrequires hentries hlacks)
  | some value =>
      dsimp only
      split
      case h_1 hempty =>
        exact genuine_here (.broken (at?_key_of_field? hentries hfield) hasks (.someItems hempty))
      case h_2 => exact genuine_sequenceField hentries hholds hplace h hfield

end Items

/-! ### Choices -/

theorem genuine_of_choice_eq_error {α : Type} {ofName? : String → Option α}
    {unknown : String → Defect} {demand : Demand} {defect : Defect}
    (hentries : document.mappingAt? path = some entries)
    (h : choice name ofName? unknown entries = .error defect)
    (hrequires : Requires document path name) (hname : name ≠ "expected")
    (htext : Asks document (path.key name) (.shape .text))
    (hasks : Asks document (path.key name) demand)
    (hunknown : ∀ value text, value.str? = some text → ofName? text = none →
      demand.Breaks value (unknown text)) :
    Genuine document (path.key name) defect := by
  unfold choice at h
  cases hfield : entries.field? name with
  | none =>
      rw [hfield] at h
      cases h
      exact .missing hrequires hentries (lacks_of_field? hfield hname)
  | some value =>
      have hplace := at?_key_of_field? hentries hfield
      rw [hfield] at h
      obtain hneed | ⟨text, hneed, hchosen⟩ := bind_eq_error_iff.mp h
      · have hrefused : ¬ Shape.text.Admits value := by
          rintro ⟨text, hstr, -⟩
          rw [needText_eq_ok_iff.mpr hstr] at hneed
          cases hneed
        exact .broken hplace htext (.shape hrefused (bind_eq_error_iff.mpr (.inl hneed)))
      · cases hname? : ofName? text with
        | none =>
            rw [hname?] at hchosen
            cases hchosen
            have hstr := needText_eq_ok_iff.mp hneed
            exact .broken hplace hasks (hunknown value text hstr hname?)
        | some chosen =>
            rw [hname?] at hchosen
            cases hchosen

theorem ne_of_ofName?_eq_none {α : Type} {ofName? : String → Option α} {nameOf : α → String}
    (hname : ∀ {text a}, ofName? text = some a ↔ text = nameOf a) {text : String}
    (h : ofName? text = none) (a : α) : nameOf a ≠ text := by
  rintro rfl
  rw [hname.mpr rfl] at h
  cases h

theorem genuine_plugin {defect : Defect} (hplace : Place .step path)
    (hentries : document.mappingAt? path = some entries)
    (h : chosenPlugin entries = .error defect) :
    Genuine document (path.key "plugin") defect := by
  refine genuine_of_choice_eq_error hentries h (.plugin hplace) (by decide) (.pluginText hplace)
    (.plugin hplace) ?_
  intro value text htext hunknown
  exact .plugin htext (ne_of_ofName?_eq_none Plugin.ofName?_eq_some_iff hunknown)

theorem genuine_type {defect : Defect} (hplace : Place .assertion path)
    (hentries : document.mappingAt? path = some entries)
    (h : chosenAssertion entries = .error defect) :
    Genuine document (path.key "type") defect := by
  refine genuine_of_choice_eq_error hentries h (.type hplace) (by decide) (.typeText hplace)
    (.type hplace) ?_
  intro value text htext hunknown
  exact .assertionKind htext (ne_of_ofName?_eq_none AssertionKind.ofName?_eq_some_iff hunknown)

/-! ### Elements -/

theorem genuine_checkAssertion (hplace : Place .assertion path)
    (hvalue : document.at? path = some value) :
    (checkAssertion value).GenuineAt document path := by
  refine genuine_checkMapping hvalue (.element hplace) fun entries hentries => ?_
  cases hchosen : chosenAssertion entries with
  | error defect => exact genuine_atKey (genuine_here (genuine_type hplace hentries hchosen))
  | ok kind =>
      have hkind := chosenAssertion_eq_ok_iff.mp hchosen
      refine GenuineAt.append ?_ (genuine_unknownKeys _ _)
      exact genuine_checkFields (fun rule hrule => .payload hplace hentries hkind hrule) hentries

theorem genuine_checkCapture (hplace : Place .capture path)
    (hvalue : document.at? path = some value) :
    (checkCapture value).GenuineAt document path := by
  refine genuine_checkMapping hvalue (.element hplace) fun entries hentries => ?_
  refine GenuineAt.append ?_ (genuine_unknownKeys _ _)
  exact genuine_checkFields (fun rule hrule => .element hplace hrule) hentries

theorem genuine_checkKeys (hentries : document.mappingAt? path = some entries)
    (hasks : Asks document path .textKeys) : (checkKeys entries).GenuineAt document path := by
  obtain ⟨value, hvalue, hmap⟩ := Option.bind_eq_some_iff.mp hentries
  intro found hfound
  obtain ⟨entry, hentry, rfl⟩ := List.mem_map.mp hfound
  obtain ⟨hentry, hkey⟩ := List.mem_filter.mp hentry
  rw [FieldPath.under_root]
  exact .broken hvalue hasks (.textKeys hmap hentry (Option.isNone_iff_eq_none.mp hkey))

theorem genuine_checkConfig (hplace : Place .step path)
    (hentries : document.mappingAt? path = some entries) :
    (checkConfig (chosenPlugin entries) entries).GenuineAt document path := by
  refine genuine_atKey ?_
  cases hfield : entries.field? "config" with
  | none =>
      have hlacks : Lacks entries path "config" := lacks_of_field? hfield (by decide)
      exact genuine_here (.missing (.config hplace) hentries hlacks)
  | some value =>
      have hvalue := at?_key_of_field? hentries hfield
      refine genuine_checkMapping hvalue (.config hplace) fun settings hsettings => ?_
      refine GenuineAt.append (genuine_checkKeys hsettings (.settings hplace)) ?_
      cases hchosen : chosenPlugin entries with
      | error defect => exact genuine_none
      | ok plugin =>
          have hplugin := chosenPlugin_eq_ok_iff.mp hchosen
          refine GenuineAt.append ?_ (genuine_unknownKeys _ _)
          exact genuine_checkFields (fun rule hrule => .setting hplace hentries hplugin hrule)
            hsettings

theorem genuine_checkPlugin (hplace : Place .step path)
    (hentries : document.mappingAt? path = some entries) :
    (checkPlugin (chosenPlugin entries)).GenuineAt document path := by
  cases hchosen : chosenPlugin entries with
  | error defect => exact genuine_atKey (genuine_here (genuine_plugin hplace hentries hchosen))
  | ok plugin => exact genuine_none

theorem genuine_checkStep (hplace : Place .step path) (hvalue : document.at? path = some value) :
    (checkStep value).GenuineAt document path := by
  refine genuine_checkMapping hvalue (.element hplace) fun entries hentries => ?_
  have hname : (checkField entries nameRule).GenuineAt document path :=
    genuine_checkField (.element hplace (List.mem_singleton_self nameRule)) hentries
  have hplugin := genuine_checkPlugin hplace hentries
  have hconfig := genuine_checkConfig hplace hentries
  have hassertions := genuine_checkAnyItems hentries .assertions hplace genuine_checkAssertion
  have hcaptures := genuine_checkAnyItems hentries .captures hplace genuine_checkCapture
  have hknown := hname.append (genuine_unknownKeys stepKeys entries)
  exact (((hknown.append hplugin).append hconfig).append hassertions).append hcaptures

theorem genuine_checkHolder {whole element : Element} {known : List String}
    {check : Value → Findings} (hplace : Place whole path) (hvalue : document.at? path = some value)
    (hrules : whole.rules = [nameRule, descriptionRule]) (hholds : whole.Holds name element)
    (hrequires : Requires document path name) (hasks : Asks document (path.key name) .someItems)
    (h : ∀ {path value}, Place element path → document.at? path = some value →
      (check value).GenuineAt document path) :
    (checkMapping value fun entries =>
      checkField entries nameRule ++ checkField entries descriptionRule ++ unknownKeys known entries
        ++ checkSomeItems name check entries).GenuineAt document path := by
  refine genuine_checkMapping hvalue (.element hplace) fun entries hentries => ?_
  have hrule : ∀ rule ∈ [nameRule, descriptionRule],
      (checkField entries rule).GenuineAt document path := by
    rw [← hrules]
    exact fun rule hrule => genuine_checkField (.element hplace hrule) hentries
  have hname := hrule nameRule (by simp)
  have hdescription := hrule descriptionRule (by simp)
  have hitems := genuine_checkSomeItems hentries hholds hplace h hrequires hasks
  exact ((hname.append hdescription).append (genuine_unknownKeys known entries)).append hitems

theorem genuine_checkTest (hplace : Place .test path) (hvalue : document.at? path = some value) :
    (checkTest value).GenuineAt document path :=
  genuine_checkHolder hplace hvalue rfl .steps (.steps hplace) (.steps hplace) genuine_checkStep

theorem genuine_checkSuite (hplace : Place .suite path) (hvalue : document.at? path = some value) :
    (checkSuite value).GenuineAt document path :=
  genuine_checkHolder hplace hvalue rfl .tests (.tests hplace) (.tests hplace) genuine_checkTest

/-! ### Documents -/

theorem Demand.Breaks.ne_missing {demand : Demand} {defect : Defect}
    (h : demand.Breaks value defect) (field : String) : defect ≠ .missing field := by
  rintro rfl
  cases h with
  | shape _ hdefect => exact Shape.check_ne_missing _ _ field hdefect

/-- **Violations are genuine.** Whatever is reported of a document says either that a field is
missing, and then a mapping has to have the field and lacks it, or something else, and then the value
at the very path that is reported breaks what is asked of it in the way that is reported. -/
theorem validate_genuine {document : Value} {broken : List Violation}
    (h : validate document = .error broken) :
    ∀ violation ∈ broken,
      (∃ path name entries,
        violation = ⟨path.key name, "missing required field '" ++ name ++ "'"⟩
          ∧ Requires document path name ∧ document.mappingAt? path = some entries
          ∧ Lacks entries path name)
      ∨ ∃ value demand defect,
        violation.message = defect.message
          ∧ (∀ name, violation.message ≠ "missing required field '" ++ name ++ "'")
          ∧ document.at? violation.path = some value ∧ Asks document violation.path demand
          ∧ demand.Breaks value defect := by
  obtain ⟨rfl, -⟩ := validate_eq_error_iff.mp h
  intro violation hviolation
  obtain ⟨⟨path, defect⟩, hfound, rfl⟩ := List.mem_map.mp hviolation
  have hgenuine := genuine_checkSuite .root rfl (path, defect) hfound
  rw [FieldPath.root_under] at hgenuine
  cases hgenuine with
  | missing hrequires hentries hlacks =>
      exact .inl ⟨_, _, _, rfl, hrequires, hentries, hlacks⟩
  | broken hvalue hasks hbreaks =>
      have hmessage := Defect.message_ne_missing hbreaks.ne_missing
      exact .inr ⟨_, _, _, rfl, hmessage, hvalue, hasks, hbreaks⟩

theorem validate_genuine_null_expectation :
    let expectation : Value :=
      .map [(.str "type", .str "json_path"), (.str "path", .str " "), (.str "expected", .null)]
    let settings : Value := .map [(.int 1, .null), (.str "duration", .str "5 s")]
    let step : Value := .map [(.str "plugin", .str "delay"), (.str "config", settings),
      (.str "assertions", .tagged "k" (.seq [expectation]))]
    let test : Value := .map [(.str "name", .str "t"), (.str "steps", .seq [step])]
    let document : Value := .map [(.str "name", .null), (.str "tests", .seq [test])]
    ∃ broken, validate document = .error broken ∧ broken.length = 5 ∧
      ∀ violation ∈ broken,
        (∃ path name entries,
          violation = ⟨path.key name, "missing required field '" ++ name ++ "'"⟩
            ∧ Requires document path name ∧ document.mappingAt? path = some entries
            ∧ Lacks entries path name)
        ∨ ∃ value demand defect,
          violation.message = defect.message
            ∧ (∀ name, violation.message ≠ "missing required field '" ++ name ++ "'")
            ∧ document.at? violation.path = some value ∧ Asks document violation.path demand
            ∧ demand.Breaks value defect := by
  intro expectation settings step test document
  have hbroken : ∃ broken, validate document = .error broken ∧ broken.length = 5 := by
    refine ⟨violations document, ?_, by decide +kernel⟩
    exact validate_eq_error_iff.mpr ⟨rfl, by decide +kernel⟩
  obtain ⟨broken, hvalidate, hlength⟩ := hbroken
  exact ⟨broken, hvalidate, hlength, validate_genuine hvalidate⟩

end ApiSuite.Schema
