import ApiSuite.Proofs.Suite.Rules

/-!
# The spelling of settings

A plugin is to find its method in capitals and its duration without blanks at its ends. Where a
setting is checked and where it is read, a string is seen through tags, but only an untagged string is
respelled. So the spelling that is found is the expected one exactly if the setting was written
without a tag or in this spelling.
-/

namespace ApiSuite

open Schema

/-- The setting that is respelled for a plugin. -/
def Plugin.respelledSetting : Plugin → String
  | .http => "method"
  | .delay => "duration"

def Plugin.respell : Plugin → String → String
  | .http, s => Text.upper (Text.trim s)
  | .delay, s => Text.trim s

/-- The spelling of this setting that the plugin expects: one of the methods, as they are listed, or
a duration without blanks at its ends. -/
def Plugin.Expects : Plugin → String → Prop
  | .http, s => s ∈ httpMethods
  | .delay, s => Text.trim s = s

/-- A setting that keeps its rule, as a text. -/
def Plugin.Accepts : Plugin → String → Prop
  | .http, s => IsMethodText s
  | .delay, s => IsDurationText s

theorem Plugin.Accepts.expects_respell {plugin : Plugin} {s : String} (h : plugin.Accepts s) :
    plugin.Expects (plugin.respell s) := by
  cases plugin with
  | http => exact h
  | delay => exact Text.trim_trim s

theorem respelled_respelledSetting (plugin : Plugin) :
    respelled plugin plugin.respelledSetting = Suite.mapText plugin.respell := by
  cases plugin with
  | http => exact Suite.respelled_method
  | delay => exact Suite.respelled_duration

theorem Value.str?_mapText_eq_some {change : String → String} {value : Value} {text : String}
    (h : (Suite.mapText change value).str? = some text) :
    ∃ s, value.str? = some s ∧ (value = .str s ∧ text = change s ∨ value ≠ .str s ∧ text = s) := by
  cases value with
  | str s => exact ⟨s, rfl, .inl ⟨rfl, (Option.some.inj h).symm⟩⟩
  | _ => exact ⟨text, h, .inr ⟨nofun, rfl⟩⟩

theorem Value.exists_str?_mapText {value : Value} {s : String} (h : value.str? = some s)
    (change : String → String) : ∃ text, (Suite.mapText change value).str? = some text := by
  cases value with
  | str s => exact ⟨change s, rfl⟩
  | _ => exact ⟨s, h⟩

theorem Schema.IsSettings.accepts {settings : Entries} {plugin : Plugin} {written : Value} {s : String}
    (h : IsSettings settings plugin)
    (hget : settings.get? plugin.respelledSetting = some written) (hstr : written.str? = some s) :
    plugin.Accepts s := by
  have hnull : written.isNull = false := by
    rw [Value.isNull, Value.untag_eq_of_str? hstr]
  have hfield : settings.field? plugin.respelledSetting = some written := by
    simp [Entries.field?, hget, Option.filter, hnull]
  cases h with
  | delay duration =>
      obtain ⟨s', hstr', haccepts⟩ := duration.mayHave (fun _ => id) written hfield
      rwa [← Option.some.inj (hstr.symm.trans hstr')] at haccepts
  | http url method headers body =>
      obtain ⟨s', hstr', haccepts⟩ := method written hfield
      rwa [← Option.some.inj (hstr.symm.trans hstr')] at haccepts

theorem Plugin.expects_iff {plugin : Plugin} {written : Value} {s text : String}
    (haccepts : plugin.Accepts s)
    (h : written = .str s ∧ text = plugin.respell s ∨ written ≠ .str s ∧ text = s) :
    plugin.Expects text ↔ written = .str s ∨ plugin.Expects s := by
  obtain ⟨hwritten, rfl⟩ | ⟨hwritten, rfl⟩ := h
  · exact ⟨fun _ => .inl hwritten, fun _ => haccepts.expects_respell⟩
  · exact ⟨.inr, fun h => h.resolve_left hwritten⟩

/-- **When settings are spelled as expected.** Where no key is tagged, a delay of an accepted document
has its duration as a text, and the text that a step has for the setting of its plugin is spelled as
expected exactly if the value was written without a tag or in this spelling. -/
theorem build_expects_iff {document : Value} (h : Schema.validate document = .ok ()) :
    ∃ suite, Suite.build document = .ok suite ∧ ∀ i j step, suite.stepAt? i j = some step →
      ∃ settings, document.settingsAt? i j = some settings ∧ (settings.PlainKeys →
        (step.plugin = .delay → ∃ duration, step.config.str? "duration" = some duration)
        ∧ ∀ text, step.config.str? step.plugin.respelledSetting = some text →
          ∃ written s, settings.get? step.plugin.respelledSetting = some written
            ∧ written.str? = some s
            ∧ (step.plugin.Expects text ↔ written = .str s ∨ step.plugin.Expects s)) := by
  obtain ⟨suite, hbuild⟩ := Suite.build_of_validate_eq_ok h
  rw [validate_eq_ok_iff_clean, clean_checkSuite_iff] at h
  refine ⟨suite, hbuild, fun i j step hstep => ?_⟩
  have hmirrors := Suite.mirrors_of_build h hbuild
  obtain ⟨entries, hentries, hisStep, hstepMirrors⟩ := Suite.exists_stepAt h hmirrors hstep
  obtain ⟨settings, hsettings, hrules, hconfig⟩ := Step.exists_settings hisStep hstepMirrors
  refine ⟨settings, by simp [Value.settingsAt?, hentries, hsettings], fun hplain => ?_⟩
  have hget : step.config.get? step.plugin.respelledSetting =
      (settings.get? step.plugin.respelledSetting).map (Suite.mapText step.plugin.respell) := by
    rw [hconfig.get?_eq, hplain.lastSpelled?_eq_get?, respelled_respelledSetting]
  constructor
  · intro hdelay
    rw [hdelay] at hrules hget
    cases hrules with
    | delay duration =>
        obtain ⟨written, hfield, s, hs, -⟩ := duration
        have hwritten : settings.get? "duration" = some written :=
          Option.eq_some_of_filter_eq_some hfield
        obtain ⟨text, htext⟩ := Value.exists_str?_mapText hs (Plugin.respell .delay)
        refine ⟨text, ?_⟩
        have hduration : step.config.get? "duration" = _ := hget
        rw [Config.str?, hduration, Plugin.respelledSetting, hwritten]
        exact htext
  · intro text htext
    rw [Config.str?, hget] at htext
    obtain ⟨respelled, hrespelled, hstr⟩ := Option.bind_eq_some_iff.mp htext
    obtain ⟨written, hwritten, rfl⟩ := Option.map_eq_some_iff.mp hrespelled
    obtain ⟨s, hs, hspelled⟩ := Value.str?_mapText_eq_some hstr
    exact ⟨written, s, hwritten, hs, Plugin.expects_iff (hrules.accepts hwritten hs) hspelled⟩

theorem build_expects_iff_mixed_tags :
    let waiting : Value := .map [(.str "name", .str "a"), (.str "plugin", .str "delay"),
      (.str "config", .map [(.str "duration", .tagged "k" (.str "5s"))])]
    let request : Value := .map [(.str "name", .str "b"), (.str "plugin", .str "http"),
      (.str "config", .map [(.str "method", .str " post "), (.str "url", .tagged "k" (.str "u"))])]
    let test : Value := .map [(.str "name", .str "t"), (.str "steps", .seq [waiting, request])]
    let document : Value := .map [(.str "name", .str "suite"), (.str "tests", .seq [test])]
    Schema.validate document = .ok () ∧
      ∃ suite, Suite.build document = .ok suite ∧ ∀ i j step, suite.stepAt? i j = some step →
        ∃ settings, document.settingsAt? i j = some settings ∧ (settings.PlainKeys →
          (step.plugin = .delay → ∃ duration, step.config.str? "duration" = some duration)
          ∧ ∀ text, step.config.str? step.plugin.respelledSetting = some text →
            ∃ written s, settings.get? step.plugin.respelledSetting = some written
              ∧ written.str? = some s
              ∧ (step.plugin.Expects text ↔ written = .str s ∨ step.plugin.Expects s)) := by
  intro waiting request test document
  have hvalid : Schema.validate document = .ok () := by decide +kernel
  exact ⟨hvalid, build_expects_iff hvalid⟩

/-- A tagged method is accepted and keeps its blanks and small letters. -/
theorem build_not_expects_tagged_method :
    let settings : Entries := [(.str "url", .str "https://example.com"),
      (.str "method", .tagged "k" (.str " post "))]
    let step : Value := .map [(.str "name", .str "s"), (.str "plugin", .str "http"),
      (.str "config", .map settings)]
    let test : Value := .map [(.str "name", .str "t"), (.str "steps", .seq [step])]
    let document : Value := .map [(.str "name", .str "suite"), (.str "tests", .seq [test])]
    Schema.validate document = .ok () ∧ document.settingsAt? 0 0 = some settings ∧ settings.PlainKeys
      ∧ ∃ suite step, Suite.build document = .ok suite ∧ suite.stepAt? 0 0 = some step
        ∧ step.plugin = .http ∧ step.config.str? "method" = some " post " ∧ " post " ∉ httpMethods := by
  intro settings step test document
  have hvalid : Schema.validate document = .ok () := by decide +kernel
  have hplain : settings.PlainKeys := ⟨by simp [settings], by decide⟩
  have hread : ((Suite.build document).toOption >>= (·.stepAt? 0 0)).map
      (fun step => (step.plugin, step.config.str? "method")) = some (.http, some " post ") := by
    decide +kernel
  obtain ⟨suite, hbuild⟩ := Suite.build_of_validate_eq_ok hvalid
  rw [hbuild] at hread
  obtain ⟨built, hbuilt, hpair⟩ := Option.map_eq_some_iff.mp hread
  obtain ⟨hplugin, hmethod⟩ := Prod.mk.inj hpair
  exact ⟨hvalid, rfl, hplain, suite, built, hbuild, hbuilt, hplugin, hmethod, by decide⟩

end ApiSuite
