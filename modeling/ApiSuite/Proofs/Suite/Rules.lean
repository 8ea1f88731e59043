import ApiSuite.Proofs.Suite.Faithful
import ApiSuite.Proofs.Text.Capitals

/-!
# Settings and the rules they were checked by

The check looks a setting up by its untagged key, and a step holds what was last written under the
text of the key. Where a tagged key spells the same text as an untagged one, the two may be different
values, and then the step is held to rules that its own setting never met. Respelling a setting, in
contrast, never takes it out of its rule: a duration without blanks at its ends is a duration, and a
method in capitals is a method.
-/

namespace ApiSuite

open Schema

/-- The rule holds of a setting, if there is one. A null counts as none. -/
def Schema.FieldRule.KeptBy (rule : FieldRule) (setting : Option Value) : Prop :=
  (rule.required = true → ∃ value, setting = some value ∧ value.isNull = false)
    ∧ ∀ value, setting = some value → value.isNull = false → rule.shape.check value = .ok ()

/-- A step whose settings keep the rules of its plugin. -/
def Step.KeepsRules (step : Step) : Prop :=
  ∀ rule ∈ configRules step.plugin, rule.KeptBy (step.config.get? rule.name)

/-- Settings of which the last entry of each spelling keeps the rules of the plugin. -/
def Entries.LastKeepRules (settings : Entries) (plugin : Plugin) : Prop :=
  ∀ rule ∈ configRules plugin, rule.KeptBy (settings.lastSpelled? rule.name)

/-- No key is tagged, and none occurs twice. -/
def Entries.PlainKeys (entries : Entries) : Prop :=
  (∀ entry ∈ entries, ∃ s, entry.1 = .str s) ∧ (entries.map fun entry => entry.1.str?).Nodup

/-! ### Places -/

def Entries.mappingAt? (entries : Entries) (name : String) : Option Entries :=
  entries.field? name >>= Value.map?

def Entries.itemAt? (entries : Entries) (name : String) (i : Nat) : Option Value := do
  let items ← entries.field? name >>= Value.seq?
  items[i]?

/-- The mapping that step `j` of test `i` is written as. -/
def Value.stepAt? (document : Value) (i j : Nat) : Option Entries := do
  let test ← (← document.map?).itemAt? "tests" i
  let step ← (← test.map?).itemAt? "steps" j
  step.map?

/-- The settings as they are written for step `j` of test `i`. -/
def Value.settingsAt? (document : Value) (i j : Nat) : Option Entries := do
  (← document.stepAt? i j).mappingAt? "config"

def Suite.stepAt? (suite : Suite) (i j : Nat) : Option Step := do
  let test ← suite.tests[i]?
  test.steps[j]?

theorem Entries.HasParts.exists_itemAt {α : Type} {entries : Entries} {name : String}
    {corresponds : Value → α → Prop} {parts : List α} {i : Nat} {part : α}
    (h : entries.HasParts name corresponds parts) (hpart : parts[i]? = some part) :
    ∃ item, entries.itemAt? name i = some item ∧ corresponds item part := by
  obtain ⟨value, hfield, items, hseq, hparts⟩ := h
  obtain ⟨hi, rfl⟩ := List.getElem?_eq_some_iff.mp hpart
  have hlength := hparts.length_eq
  have hi' : i < items.length := by omega
  refine ⟨items[i], ?_, hparts.get hi' hi⟩
  simp [itemAt?, hfield, hseq, hi']

theorem Suite.exists_stepAt {suite : Suite} {document : Value} {i j : Nat} {step : Step}
    (hform : document.IsMapping IsSuite) (h : document.IsMapping suite.Mirrors)
    (hstep : suite.stepAt? i j = some step) :
    ∃ entries, document.stepAt? i j = some entries ∧ IsStep entries ∧ step.Mirrors entries := by
  obtain ⟨test, htest, hstep⟩ := Option.bind_eq_some_iff.mp hstep
  obtain ⟨top, htop, hisSuite, hsuite⟩ := hform.and h
  have htests := hsuite.tests.imp_of_form (hisSuite.tests.mayHave Value.IsSomeSequence.isSequence)
    fun item test => Value.IsMapping.and
  obtain ⟨item, hitem, middle, hmiddle, hisTest, hmirrors⟩ := htests.exists_itemAt htest
  have hsteps := hmirrors.steps.imp_of_form (hisTest.steps.mayHave Value.IsSomeSequence.isSequence)
    fun item step => Value.IsMapping.and
  obtain ⟨item', hitem', entries, hentries, hboth⟩ := hsteps.exists_itemAt hstep
  refine ⟨entries, ?_, hboth⟩
  simp [Value.stepAt?, htop, hitem, hmiddle, hitem', hentries]

/-! ### Respelling keeps the rules -/

namespace Schema

theorem isDurationText_trim_iff {s : String} : IsDurationText (Text.trim s) ↔ IsDurationText s := by
  unfold IsDurationText
  rw [Text.trim_trim]

theorem upper_of_mem_httpMethods : ∀ method ∈ httpMethods,
    Text.upper method = method ∧ method.toList.all Char.isUpper = true := by
  decide +kernel

theorem isMethodText_upper_trim_iff {s : String} :
    IsMethodText (Text.upper (Text.trim s)) ↔ IsMethodText s := by
  unfold IsMethodText
  rw [Text.trim_upper (Text.trim_trim s)]
  constructor
  · intro h
    -- A letter such as `ſ` is a capital of ASCII after one pass, so a second one changes nothing.
    have hcapital := List.all_eq_true.mp (upper_of_mem_httpMethods _ h).2
    rwa [← Text.upper_upper_of_isUpper hcapital]
  · intro h
    rwa [(upper_of_mem_httpMethods _ h).1]

theorem isNull_respelled {plugin : Plugin} {name : String} {value : Value} :
    (respelled plugin name value).isNull = value.isNull := by
  unfold respelled
  split <;> simp [Value.isNull, Value.untag]

theorem admits_respelled_iff {plugin : Plugin} {rule : FieldRule} (hrule : rule ∈ configRules plugin)
    {value : Value} :
    rule.shape.Admits (respelled plugin rule.name value) ↔ rule.shape.Admits value := by
  cases plugin with
  | delay =>
      obtain rfl : rule = .mandatory "duration" .duration := by simpa [configRules] using hrule
      change Shape.duration.Admits (respelled .delay "duration" value) ↔ Shape.duration.Admits value
      rw [Suite.respelled_duration]
      cases value with
      | str s =>
          change (Value.str (Text.trim s)).IsText _ ↔ (Value.str s).IsText _
          rw [Value.isText_str_iff, Value.isText_str_iff, isDurationText_trim_iff]
      | _ => rfl
  | http =>
      by_cases hmethod : rule.name = "method"
      · obtain rfl : rule = .elective "method" .httpMethod := by
          simp only [configRules, List.mem_cons, List.not_mem_nil, or_false] at hrule
          rcases hrule with rfl | rfl | rfl | rfl <;>
            simp_all [FieldRule.mandatory, FieldRule.elective]
        change Shape.httpMethod.Admits (respelled .http "method" value) ↔ Shape.httpMethod.Admits value
        rw [Suite.respelled_method]
        cases value with
        | str s =>
            change (Value.str (Text.upper (Text.trim s))).IsText _ ↔ (Value.str s).IsText _
            rw [Value.isText_str_iff, Value.isText_str_iff, isMethodText_upper_trim_iff]
        | _ => rfl
      · rw [Suite.respelled_http_of_ne hmethod, id]

theorem keptBy_map_respelled_iff {plugin : Plugin} {rule : FieldRule}
    (hrule : rule ∈ configRules plugin) {setting : Option Value} :
    rule.KeptBy (setting.map (respelled plugin rule.name)) ↔ rule.KeptBy setting := by
  unfold FieldRule.KeptBy
  cases setting with
  | none => simp
  | some value =>
      simp [isNull_respelled, Shape.check_eq_ok_iff, admits_respelled_iff hrule]

end Schema

/-! ### Untagged keys -/

theorem Entries.PlainKeys.lastSpelled?_eq_get? {entries : Entries} {name : String}
    (h : entries.PlainKeys) : entries.lastSpelled? name = entries.get? name := by
  induction entries with
  | nil => rfl
  | cons entry rest ih =>
      obtain ⟨key, value⟩ := entry
      obtain ⟨htext, hnodup⟩ := h
      obtain ⟨s, hkey⟩ := htext _ List.mem_cons_self
      obtain ⟨hnot, hrest⟩ := List.nodup_cons.mp hnodup
      have hlater := ih ⟨fun entry hentry => htext entry (List.mem_cons_of_mem _ hentry), hrest⟩
      subst hkey
      rw [lastSpelled?_cons]
      by_cases hname : s = name
      · subst hname
        -- A later entry of this spelling would have the same key again.
        have hnone : Entries.lastSpelled? rest s = none := by
          rw [Option.eq_none_iff_forall_ne_some]
          intro last hlast
          obtain ⟨entry, hentry, hspelled⟩ := lastSpelled?_isSome_iff.mp ⟨last, hlast⟩
          exact hnot (List.mem_map.mpr ⟨entry, hentry, hspelled⟩)
        simp [hnone, get?, Value.isKey, Value.str?, Value.untag]
      · simp [hlater, hname, get?, Value.isKey, Value.str?, Value.untag]

namespace Schema

theorem keptBy_get?_iff {rule : FieldRule} {entries : Entries} (hrule : rule.nullable = false) :
    rule.KeptBy (entries.get? rule.name) ↔ (checkField entries rule).Clean := by
  rw [clean_checkField_iff]
  simp [FieldRule.KeptBy, FieldRule.value?, hrule, Entries.field?, Option.filter_eq_some_iff,
    Shape.check_eq_ok_iff]

theorem nullable_of_mem_configRules {plugin : Plugin} :
    ∀ rule ∈ configRules plugin, rule.nullable = false := by
  cases plugin <;> decide

theorem isSettings_iff_keptBy {plugin : Plugin} {settings : Entries} :
    IsSettings settings plugin ↔
      ∀ rule ∈ configRules plugin, rule.KeptBy (settings.get? rule.name) := by
  have hfields : (∀ rule ∈ configRules plugin, (checkField settings rule).Clean) ↔
      IsSettings settings plugin := by
    rw [← clean_configRules_iff, checkFields, Findings.clean_join_iff, List.forall_mem_map]
  rw [← hfields]
  refine forall₂_congr fun rule hrule => ?_
  rw [keptBy_get?_iff (nullable_of_mem_configRules rule hrule)]

end Schema

/-! ### Steps -/

theorem Config.Mirrors.get?_eq {config : Config} {plugin : Plugin} {entries : Entries} {name : String}
    (h : config.Mirrors plugin entries) :
    config.get? name = (entries.lastSpelled? name).map (respelled plugin name) := by
  cases hget : config.get? name with
  | some value =>
      obtain ⟨written, hwritten, rfl⟩ := h.values name value (Config.mem_entries_iff.mpr hget)
      rw [hwritten, Option.map_some]
  | none =>
      cases hlast : entries.lastSpelled? name with
      | none => rfl
      | some written =>
          obtain ⟨value, hvalue⟩ := (h.keys name).mpr (Entries.lastSpelled?_isSome_iff.mp ⟨_, hlast⟩)
          rw [Config.mem_entries_iff, hget] at hvalue
          cases hvalue

theorem Step.keepsRules_iff {step : Step} {settings : Entries}
    (h : step.config.Mirrors step.plugin settings) :
    step.KeepsRules ↔ settings.LastKeepRules step.plugin := by
  unfold KeepsRules Entries.LastKeepRules
  constructor
  · intro hkeeps rule hrule
    have hkept := hkeeps rule hrule
    rwa [h.get?_eq, keptBy_map_respelled_iff hrule] at hkept
  · intro hkeep rule hrule
    rw [h.get?_eq, keptBy_map_respelled_iff hrule]
    exact hkeep rule hrule

theorem Step.exists_settings {step : Step} {entries : Entries} (hform : IsStep entries)
    (h : step.Mirrors entries) :
    ∃ settings, entries.mappingAt? "config" = some settings
      ∧ IsSettings settings step.plugin ∧ step.config.Mirrors step.plugin settings := by
  obtain ⟨plugin, hplugin, hconfig⟩ := hform.action
  obtain rfl : plugin = step.plugin := Plugin.name_injective (hplugin.unique h.plugin)
  obtain ⟨value, hfield, hisConfig, hmirrors⟩ := hconfig.and h.config
  obtain ⟨settings, hmap, ⟨-, hsettings⟩, hconfig⟩ := hisConfig.and hmirrors
  exact ⟨settings, by simp [Entries.mappingAt?, hfield, hmap], hsettings, hconfig⟩

/-- **When the rules outlast the check.** The steps of an accepted document keep the rules of their
settings exactly if the entries last written under each spelling do, and so they do where no key of
the settings is tagged. -/
theorem build_keepsRules_iff {document : Value} (h : Schema.validate document = .ok ()) :
    ∃ suite, Suite.build document = .ok suite ∧ ∀ i j step, suite.stepAt? i j = some step →
      ∃ settings, document.settingsAt? i j = some settings
        ∧ (step.KeepsRules ↔ settings.LastKeepRules step.plugin)
        ∧ (settings.PlainKeys → step.KeepsRules) := by
  obtain ⟨suite, hbuild⟩ := Suite.build_of_validate_eq_ok h
  rw [validate_eq_ok_iff_clean, clean_checkSuite_iff] at h
  refine ⟨suite, hbuild, fun i j step hstep => ?_⟩
  have hmirrors := Suite.mirrors_of_build h hbuild
  obtain ⟨entries, hentries, hisStep, hstepMirrors⟩ := Suite.exists_stepAt h hmirrors hstep
  obtain ⟨settings, hsettings, hrules, hconfig⟩ := Step.exists_settings hisStep hstepMirrors
  have hkeeps := Step.keepsRules_iff hconfig
  refine ⟨settings, ?_, hkeeps, fun hplain => hkeeps.mpr fun rule hrule => ?_⟩
  · simp [Value.settingsAt?, hentries, hsettings]
  · rw [hplain.lastSpelled?_eq_get?]
    exact isSettings_iff_keptBy.mp hrules rule hrule

theorem build_keepsRules_iff_tagged_duration :
    let settings : Value := .map [(.str "duration", .str " 5s "), (.tagged "k" (.str "duration"), .str "1m")]
    let step : Value := .map [(.str "name", .str "s"), (.str "plugin", .str "delay"), (.str "config", settings)]
    let test : Value := .map [(.str "name", .str "t"), (.str "steps", .seq [step])]
    let document : Value := .map [(.str "name", .str "suite"), (.str "tests", .seq [test])]
    Schema.validate document = .ok () ∧
      ∃ suite, Suite.build document = .ok suite ∧ ∀ i j step, suite.stepAt? i j = some step →
        ∃ settings, document.settingsAt? i j = some settings
          ∧ (step.KeepsRules ↔ settings.LastKeepRules step.plugin)
          ∧ (settings.PlainKeys → step.KeepsRules) := by
  intro settings step test document
  have hvalid : Schema.validate document = .ok () := by decide +kernel
  exact ⟨hvalid, build_keepsRules_iff hvalid⟩

/-- A null under a tagged key takes the place of the address that was checked. -/
theorem build_not_keepsRules_tagged_url :
    let settings : Value := .map [(.str "url", .str "https://example.com"), (.tagged "k" (.str "url"), .null)]
    let step : Value := .map [(.str "name", .str "s"), (.str "plugin", .str "http"), (.str "config", settings)]
    let test : Value := .map [(.str "name", .str "t"), (.str "steps", .seq [step])]
    let document : Value := .map [(.str "name", .str "suite"), (.str "tests", .seq [test])]
    let built : Step := ⟨"s", .http, Config.empty.insert "url" .null, [], []⟩
    Schema.validate document = .ok ()
      ∧ Suite.build document = .ok ⟨"suite", none, [⟨"t", none, [built]⟩]⟩ ∧ ¬ built.KeepsRules := by
  intro settings step test document built
  refine ⟨by decide +kernel, by rfl, fun hkeeps => ?_⟩
  obtain ⟨hrequired, -⟩ := hkeeps (.mandatory "url" .nonBlankText) List.mem_cons_self
  obtain ⟨value, hvalue, hnotNull⟩ := hrequired rfl
  have hnull : built.config.get? "url" = some .null := by rfl
  rw [FieldRule.mandatory, hnull] at hvalue
  cases hvalue
  exact Bool.noConfusion hnotNull

end ApiSuite
