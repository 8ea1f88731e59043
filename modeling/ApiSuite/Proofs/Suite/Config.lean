import ApiSuite.Proofs.Suite.Built
import Mathlib.Data.List.Basic

/-!
# The settings of a step

Settings are entered under the text of their keys, seen through tags, and a later entry replaces an
earlier one of the same text. So a setting is the value of the last entry whose key is spelled like
it, whatever the order and the tags of the keys, and only the one setting that a plugin respells is
changed.
-/

namespace ApiSuite

/-- The value of the last entry whose key is this text, through tags. -/
def Entries.lastSpelled? (entries : Entries) (name : String) : Option Value :=
  (entries.filter fun entry => entry.1.str? = some name).getLast?.map (·.2)

/-- A setting as a step holds it: of the method and the duration the untagged text is respelled, and
every other value is as it was written. -/
def respelled : Plugin → String → Value → Value
  | .http, "method", .str s => .str (Text.upper (Text.trim s))
  | .delay, "duration", .str s => .str (Text.trim s)
  | _, _, value => value

/-! ### Looking up -/

namespace Config

variable {config : Config} {key name : String} {value : Value}

theorem lookup_cons (entries : List (String × Value)) :
    List.lookup name ((key, value) :: entries) = if name = key then some value else entries.lookup name := by
  rw [List.lookup_cons]
  by_cases hname : name = key
  · simp [hname]
  · simp [hname, beq_false_of_ne hname]

theorem lookup_put (entries : List (String × Value)) :
    (put key value entries).lookup name = if name = key then some value else entries.lookup name := by
  induction entries with
  | nil => rw [put, lookup_cons]
  | cons entry rest ih =>
      obtain ⟨other, old⟩ := entry
      rw [put]
      by_cases hlt : key < other
      · rw [if_pos hlt, lookup_cons]
      · rw [if_neg hlt]
        by_cases heq : key = other
        · subst heq
          rw [if_pos rfl, lookup_cons, lookup_cons]
          by_cases hname : name = key <;> simp [hname]
        · rw [if_neg heq, lookup_cons, lookup_cons, ih]
          by_cases hname : name = key
          · rw [if_pos hname, if_pos hname, if_neg (hname ▸ heq)]
          · rw [if_neg hname, if_neg hname]

theorem get?_insert :
    (config.insert key value).get? name = if name = key then some value else config.get? name :=
  lookup_put config.entries

theorem get?_empty : empty.get? name = none := rfl

theorem get?_modify {change : Value → Value} :
    (config.modify key change).get? name =
      if name = key then (config.get? name).map change else config.get? name := by
  unfold modify
  by_cases hname : name = key
  · subst hname
    rw [if_pos rfl]
    cases hget : config.get? name with
    | none => simp [hget]
    | some value => simp [get?_insert]
  · rw [if_neg hname]
    split
    · rw [get?_insert, if_neg hname]
    · rfl

theorem mem_entries_iff : (name, value) ∈ config.entries ↔ config.get? name = some value := by
  obtain ⟨entries, hsorted⟩ := config
  change (name, value) ∈ entries ↔ entries.lookup name = some value
  induction entries with
  | nil => simp
  | cons entry rest ih =>
      obtain ⟨other, old⟩ := entry
      obtain ⟨hfirst, hrest⟩ := List.pairwise_cons.mp hsorted
      rw [lookup_cons, List.mem_cons, Prod.mk.injEq, ih hrest]
      by_cases hname : name = other
      · subst hname
        have hnot : rest.lookup name ≠ some value := by
          intro hlookup
          have hmem := (ih hrest).mpr hlookup
          exact String.lt_irrefl name (hfirst (name, value) hmem)
        simp [hnot, eq_comm]
      · simp [hname]

end Config

/-! ### Entering -/

namespace Entries

variable {entries : Entries} {name : String} {key value : Value}

theorem lastSpelled?_nil : lastSpelled? [] name = none := rfl

theorem lastSpelled?_cons :
    lastSpelled? ((key, value) :: entries) name =
      (entries.lastSpelled? name).or (if key.str? = some name then some value else none) := by
  unfold lastSpelled?
  rw [List.filter_cons]
  by_cases hkey : key.str? = some name
  · simp only [hkey, decide_true, if_true, List.getLast?_cons]
    cases (entries.filter fun entry => entry.1.str? = some name).getLast? <;> simp
  · simp [hkey]

theorem lastSpelled?_isSome_iff :
    (∃ value, entries.lastSpelled? name = some value) ↔ ∃ entry ∈ entries, entry.1.str? = some name := by
  induction entries with
  | nil => simp [lastSpelled?_nil]
  | cons entry rest ih =>
      obtain ⟨key, value⟩ := entry
      rw [lastSpelled?_cons]
      simp only [List.mem_cons, exists_eq_or_imp, ← ih]
      cases Entries.lastSpelled? rest name with
      | none => simp
      | some last => simp

end Entries

namespace Suite

variable {plugin : Plugin} {config built : Config} {entries : Entries} {name : String}

theorem respelled_method :
    respelled .http "method" = mapText fun s => Text.upper (Text.trim s) := by
  funext value
  cases value <;> rfl

theorem respelled_http_of_ne (hname : name ≠ "method") : respelled .http name = id := by
  funext value
  unfold respelled
  split <;> simp_all

theorem respelled_duration : respelled .delay "duration" = mapText Text.trim := by
  funext value
  cases value <;> rfl

theorem respelled_delay_of_ne (hname : name ≠ "duration") : respelled .delay name = id := by
  funext value
  unfold respelled
  split <;> simp_all

theorem get?_of_collectSettings (h : collectSettings config entries = .ok built) :
    built.get? name = (entries.lastSpelled? name).or (config.get? name) := by
  induction entries generalizing config with
  | nil =>
      cases h
      rfl
  | cons entry rest ih =>
      obtain ⟨key, value⟩ := entry
      rw [collectSettings] at h
      cases hkey : key.str? with
      | none =>
          rw [hkey] at h
          cases h
      | some text =>
          rw [hkey] at h
          -- The rest is entered after this entry, so what the rest holds goes first.
          rw [ih h, Entries.lastSpelled?_cons, Config.get?_insert, hkey, Option.or_assoc]
          by_cases hname : name = text
          · simp [hname]
          · simp [hname, Ne.symm hname]

theorem get?_normalize :
    (normalize plugin config).get? name = (config.get? name).map (respelled plugin name) := by
  cases plugin with
  | http =>
      rw [normalize, Config.get?_modify]
      by_cases hname : name = "method"
      · rw [if_pos hname, hname, respelled_method]
      · rw [if_neg hname, respelled_http_of_ne hname, Option.map_id, id]
  | delay =>
      rw [normalize, Config.get?_modify]
      by_cases hname : name = "duration"
      · rw [if_pos hname, hname, respelled_duration]
      · rw [if_neg hname, respelled_delay_of_ne hname, Option.map_id, id]

theorem get?_of_buildConfig {value : Value} (h : buildConfig plugin value = .ok config) :
    value.IsMapping fun entries =>
      ∀ name, config.get? name = (entries.lastSpelled? name).map (respelled plugin name) := by
  obtain ⟨entries, hmap, hcollect⟩ := needMapping_bind_eq_ok_iff.mp h
  obtain ⟨collected, hcollected, rfl⟩ := map_eq_ok_iff.mp hcollect
  refine ⟨entries, hmap, fun name => ?_⟩
  rw [get?_normalize, get?_of_collectSettings hcollected, Config.get?_empty, Option.or_none]

end Suite

end ApiSuite
