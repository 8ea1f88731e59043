import ApiSuite.Proofs.Schema.Genuine
import ApiSuite.Proofs.Schema.Locality
import Mathlib.Data.List.Nodup

/-!
# Violations are in order

The format gives an order to the fields of each mapping, the items of a sequence are in the order of
their indexes, and what lies at a path comes before what lies further down. The violations of a
document are in this order. No path occurs twice among them, but for the settings of a step, where
each key that is no string is a violation of its own.
-/

namespace ApiSuite.Schema

/-- The fields of the mapping at the path, in the order of the format. For settings and assertions
they depend on the plugin and the type that are written beside them. -/
inductive Lists (document : Value) : FieldPath → List String → Prop where
  | suite {path : FieldPath} (hplace : Place .suite path) :
      Lists document path ["name", "description", "tests"]
  | test {path : FieldPath} (hplace : Place .test path) :
      Lists document path ["name", "description", "steps"]
  | step {path : FieldPath} (hplace : Place .step path) :
      Lists document path ["name", "plugin", "config", "assertions", "save"]
  | settings {path : FieldPath} {entries : Entries} {plugin : Plugin} (hplace : Place .step path)
      (hentries : document.mappingAt? path = some entries)
      (hplugin : entries.HasText "plugin" plugin.name) :
      Lists document (path.key "config") (configKeys plugin)
  | assertion {path : FieldPath} {entries : Entries} {kind : AssertionKind}
      (hplace : Place .assertion path) (hentries : document.mappingAt? path = some entries)
      (hkind : entries.HasText "type" kind.name) : Lists document path (assertionKeys kind)
  | capture {path : FieldPath} (hplace : Place .capture path) :
      Lists document path ["json_path", "as"]

/-- Of two ways that start at `base`, the one comes before the other. They are compared where they
part. -/
inductive Before (document : Value) : FieldPath → List Segment → List Segment → Prop where
  | ends (base : FieldPath) (first : Segment) (rest : List Segment) :
      Before document base [] (first :: rest)
  | index {base : FieldPath} {i j : Nat} (h : i < j) (rest rest' : List Segment) :
      Before document base (.index i :: rest) (.index j :: rest')
  | key {base : FieldPath} {names : List String} {name name' : String}
      (hlists : Lists document base names) (h : [name, name'].Sublist names)
      (rest rest' : List Segment) : Before document base (.key name :: rest) (.key name' :: rest')
  | further {base : FieldPath} {segment : Segment} {rest rest' : List Segment}
      (h : Before document (base.under ⟨[segment]⟩) rest rest') :
      Before document base (segment :: rest) (segment :: rest')

/-- The order of the paths of a document. -/
def Precedes (document : Value) (path path' : FieldPath) : Prop :=
  Before document .root path.segments path'.segments

/-- The settings of a step are at the path. -/
def HoldsSettings (document : Value) (path : FieldPath) (settings : Entries) : Prop :=
  ∃ step, Place .step step ∧ path = step.key "config" ∧ document.mappingAt? path = some settings

/-- Of two paths from `base`, the one comes before the other, or both are the path of the same
settings. -/
def Follows (document : Value) (base path path' : FieldPath) : Prop :=
  Before document base path.segments path'.segments
    ∨ path = path' ∧ ∃ settings, HoldsSettings document (base.under path) settings

variable {document value : Value} {entries settings : Entries} {base path path' : FieldPath}
  {name : String} {names names' listed : List String}

/-! ### The order -/

theorem Element.Holds.unique {whole element element' : Element} (h : whole.Holds name element)
    (h' : whole.Holds name element') : element = element' := by
  generalize hname : name = name' at h'
  cases h <;> cases h' <;> first | rfl | exact absurd hname (by decide)

theorem Place.unique {element element' : Element} (h : Place element path)
    (h' : Place element' path) : element = element' := by
  induction h generalizing element' with
  | root =>
      generalize hpath : FieldPath.root = path at h'
      cases h' with
      | root => rfl
      | item hholds hplace i => exact absurd hpath (FieldPath.root_ne_index _ i)
  | @item whole element name path hholds hplace i ih =>
      generalize hpath : (path.key name).index i = path' at h'
      cases h' with
      | root => exact absurd hpath.symm (FieldPath.root_ne_index _ i)
      | item hholds' hplace' i' =>
          obtain ⟨hkey, -⟩ := FieldPath.index_eq_index_iff.mp hpath
          obtain ⟨rfl, rfl⟩ := FieldPath.key_eq_key_iff.mp hkey
          obtain rfl := ih hplace'
          exact hholds.unique hholds'

theorem Place.ne_key {element : Element} (h : Place element path) (outer : FieldPath)
    (name : String) : outer.key name ≠ path := by
  cases h with
  | root => exact (FieldPath.root_ne_key outer name).symm
  | item hholds hplace i => exact FieldPath.key_ne_index _ _ _ i

theorem Lists.unique (h : Lists document path names) (h' : Lists document path names') :
    names = names' := by
  generalize hpath : path = path' at h'
  cases h with
  | settings hplace hentries hplugin =>
      cases h' with
      | settings hplace' hentries' hplugin' =>
          obtain ⟨rfl, -⟩ := FieldPath.key_eq_key_iff.mp hpath
          obtain rfl := Option.some.inj (hentries.symm.trans hentries')
          rw [Plugin.name_injective (hplugin.unique hplugin')]
      | _ hplace' => exact absurd hpath (hplace'.ne_key _ _)
  | assertion hplace hentries hkind =>
      cases h' with
      | settings hplace' => exact absurd hpath.symm (hplace.ne_key _ _)
      | assertion hplace' hentries' hkind' =>
          subst hpath
          obtain rfl := Option.some.inj (hentries.symm.trans hentries')
          rw [AssertionKind.name_injective (hkind.unique hkind')]
      | _ hplace' =>
          subst hpath
          cases hplace.unique hplace'
  | _ hplace =>
      cases h' with
      | settings hplace' => exact absurd hpath.symm (hplace.ne_key _ _)
      | _ hplace' =>
          subst hpath
          cases hplace.unique hplace' <;> rfl

theorem Lists.nodup (h : Lists document path names) : names.Nodup := by
  cases h with
  | @settings _ _ plugin => cases plugin <;> decide
  | @assertion _ _ kind => cases kind <;> decide
  | _ => decide

theorem pair_sublist_trans {a b c : String} (hnodup : names.Nodup) (h : [a, b].Sublist names)
    (h' : [b, c].Sublist names) : [a, c].Sublist names := by
  induction names with
  | nil => cases h
  | cons first rest ih =>
      obtain ⟨hfirst, hrest⟩ := List.nodup_cons.mp hnodup
      cases h with
      | cons _ hab =>
          cases h' with
          | cons _ hbc => exact (ih hrest hab hbc).cons first
          | cons_cons _ hc => exact absurd (hab.subset (by simp)) hfirst
      | cons_cons _ hb =>
          cases h' with
          | cons _ hbc => exact ((List.sublist_cons_self b [c]).trans hbc).cons_cons a
          | cons_cons _ hc => exact absurd (hb.subset (by simp)) hfirst

theorem Before.irrefl {segments : List Segment} (h : Before document base segments segments) :
    False := by
  induction segments generalizing base with
  | nil => cases h
  | cons segment rest ih =>
      cases h with
      | index h => exact Nat.lt_irrefl _ h
      | key hlists h => exact List.nodup_iff_sublist.mp hlists.nodup _ h
      | further h => exact ih h

theorem Before.trans {a b c : List Segment} (hab : Before document base a b)
    (hbc : Before document base b c) : Before document base a c := by
  induction hab generalizing c with
  | ends base first rest => cases hbc <;> exact .ends _ _ _
  | index hij rest rest' =>
      cases hbc with
      | index hjk => exact .index (hij.trans hjk) _ _
      | further h => exact .index hij _ _
  | key hlists h rest rest' =>
      cases hbc with
      | key hlists' h' =>
          obtain rfl := hlists.unique hlists'
          exact .key hlists (pair_sublist_trans hlists.nodup h h') _ _
      | further => exact .key hlists h _ _
  | further hab ih =>
      cases hbc with
      | index hij => exact .index hij _ _
      | key hlists h => exact .key hlists h _ _
      | further hbc => exact .further (ih hbc)

/-! ### Findings in order -/

theorem Follows.under {segment : Segment} (h : Follows document (base.under ⟨[segment]⟩) path path') :
    Follows document base (FieldPath.under ⟨[segment]⟩ path)
      (FieldPath.under ⟨[segment]⟩ path') := by
  obtain h | ⟨rfl, settings, h⟩ := h
  · exact .inl (.further h)
  · rw [FieldPath.under_assoc] at h
    exact .inr ⟨rfl, settings, h⟩

namespace Findings

variable {found other : Findings}

/-- What was found in what lies at `base` is in order. -/
def SortedAt (found : Findings) (document : Value) (base : FieldPath) : Prop :=
  found.defects.Pairwise fun earlier later => Follows document base earlier.1 later.1

/-- It is in order, and it is in these fields. -/
structure SortedIn (found : Findings) (document : Value) (base : FieldPath) (names : List String) :
    Prop where
  sorted : found.SortedAt document base
  within : ∀ entry ∈ found.defects,
    ∃ name ∈ names, ∃ rest, entry.1 = (FieldPath.root.key name).under rest

theorem sorted_none : Findings.none.SortedAt document base :=
  .nil

theorem sortedIn_none {names : List String} : Findings.none.SortedIn document base names :=
  ⟨sorted_none, List.forall_mem_nil _⟩

theorem sorted_here (defect : Defect) : (here defect).SortedAt document base :=
  List.pairwise_singleton _ _

theorem SortedAt.under {segment : Segment} (h : found.SortedAt document (base.under ⟨[segment]⟩)) :
    (found.under ⟨[segment]⟩).SortedAt document base :=
  List.pairwise_map.mpr (h.imp Follows.under)

theorem sortedIn_atKey (h : found.SortedAt document (base.key name)) :
    (found.atKey name).SortedIn document base [name] := by
  refine ⟨h.under, ?_⟩
  rintro ⟨path, defect⟩ hentry
  obtain ⟨rest, -, rfl⟩ := mem_defects_under.mp hentry
  exact ⟨name, List.mem_singleton_self name, rest, rfl⟩

theorem SortedIn.append (h : found.SortedIn document base names)
    (h' : other.SortedIn document base names') (hlists : Lists document base listed)
    (hsub : (names ++ names').Sublist listed) :
    (found ++ other).SortedIn document base (names ++ names') := by
  constructor
  · refine List.pairwise_append.mpr ⟨h.sorted, h'.sorted, ?_⟩
    rintro ⟨_, _⟩ hentry ⟨_, _⟩ hentry'
    obtain ⟨name, hname, rest, rfl⟩ := h.within _ hentry
    obtain ⟨name', hname', rest', rfl⟩ := h'.within _ hentry'
    have hpair : [name, name'].Sublist (names ++ names') :=
      (List.singleton_sublist.mpr hname).append (List.singleton_sublist.mpr hname')
    exact .inl (.key hlists (hpair.trans hsub) _ _)
  · intro entry hentry
    obtain hentry | hentry := List.mem_append.mp hentry
    · obtain ⟨name, hname, hrest⟩ := h.within entry hentry
      exact ⟨name, List.mem_append_left names' hname, hrest⟩
    · obtain ⟨name, hname, hrest⟩ := h'.within entry hentry
      exact ⟨name, List.mem_append_right names hname, hrest⟩

theorem SortedIn.unknownKeys (h : found.SortedIn document base names) (known : List String)
    (entries : Entries) : (found ++ unknownKeys known entries).SortedIn document base names := by
  have hdefects : (found ++ Schema.unknownKeys known entries).defects = found.defects :=
    List.append_nil _
  exact ⟨by rw [SortedAt, hdefects]; exact h.sorted, by rw [hdefects]; exact h.within⟩

theorem sorted_ofItems {check : Value → Findings} {items : List Value}
    (h : ∀ i item, items[i]? = some item → (check item).SortedAt document (base.index i)) :
    (ofItems check items).SortedAt document base := by
  rw [SortedAt, ofItems, defects_join, List.pairwise_flatMap]
  constructor
  · intro part hpart
    obtain ⟨i, hi, rfl⟩ := List.mem_mapIdx.mp hpart
    exact SortedAt.under (h i _ (List.getElem?_eq_getElem hi))
  · refine List.pairwise_iff_getElem.mpr fun i j hi hj hij => ?_
    rw [List.getElem_mapIdx, List.getElem_mapIdx]
    rintro ⟨_, _⟩ hentry ⟨_, _⟩ hentry'
    obtain ⟨rest, -, rfl⟩ := mem_defects_under.mp hentry
    obtain ⟨rest', -, rfl⟩ := mem_defects_under.mp hentry'
    exact .inl (.index hij _ _)

end Findings

open Findings hiding none

theorem sortedIn_checkField (entries : Entries) (rule : FieldRule) :
    (checkField entries rule).SortedIn document base [rule.name] := by
  refine sortedIn_atKey ?_
  split
  · split
    · exact sorted_here _
    · exact sorted_none
  · split
    · exact sorted_none
    · exact sorted_here _

theorem sortedIn_checkFields (hlists : Lists document base listed) {rules : List FieldRule}
    (hsub : (rules.map (·.name)).Sublist listed) (entries : Entries) :
    (checkFields rules entries).SortedIn document base (rules.map (·.name)) := by
  induction rules with
  | nil => exact sortedIn_none
  | cons rule rules ih =>
      have hrules := ih (List.sublist_of_cons_sublist hsub)
      exact (sortedIn_checkField entries rule).append hrules hlists hsub

theorem sorted_checkMapping {check : Entries → Findings}
    (hvalue : document.at? path = some value)
    (h : ∀ entries, document.mappingAt? path = some entries →
      (check entries).SortedAt document path) :
    (checkMapping value check).SortedAt document path := by
  unfold checkMapping
  cases hmap : value.map? with
  | none => exact sorted_here _
  | some entries => exact h entries (by rw [Value.mappingAt?, hvalue]; exact hmap)

theorem sorted_checkSequence {check : Value → Findings} (hvalue : document.at? path = some value)
    (h : ∀ i item, document.at? (path.index i) = some item →
      (check item).SortedAt document (path.index i)) :
    (checkSequence value check).SortedAt document path := by
  unfold checkSequence
  cases hseq : value.seq? with
  | none => exact sorted_here _
  | some items =>
      refine sorted_ofItems fun i item hitem => h i item ?_
      rw [Value.at?_index hvalue hseq, hitem]

/-! ### Sequences of elements -/

section Items

variable {whole element : Element} {check : Value → Findings}

theorem sortedIn_checkAnyItems (hentries : document.mappingAt? path = some entries)
    (hholds : whole.Holds name element) (hplace : Place whole path)
    (h : ∀ {path value}, Place element path → document.at? path = some value →
      (check value).SortedAt document path) :
    (checkAnyItems name check entries).SortedIn document path [name] := by
  refine sortedIn_atKey ?_
  cases hfield : entries.field? name with
  | none => exact sorted_none
  | some value =>
      refine sorted_checkSequence (at?_key_of_field? hentries hfield) fun i item hitem => ?_
      exact h (.item hholds hplace i) hitem

theorem sortedIn_checkSomeItems (hentries : document.mappingAt? path = some entries)
    (hholds : whole.Holds name element) (hplace : Place whole path)
    (h : ∀ {path value}, Place element path → document.at? path = some value →
      (check value).SortedAt document path) :
    (checkSomeItems name check entries).SortedIn document path [name] := by
  refine sortedIn_atKey ?_
  cases hfield : entries.field? name with
  | none => exact sorted_here _
  | some value =>
      dsimp only
      split
      case h_1 => exact sorted_here _
      case h_2 =>
        refine sorted_checkSequence (at?_key_of_field? hentries hfield) fun i item hitem => ?_
        exact h (.item hholds hplace i) hitem

end Items

/-! ### Settings -/

theorem eq_root_of_mem_checkKeys {entry : FieldPath × Defect}
    (h : entry ∈ (checkKeys settings).defects) : entry.1 = .root := by
  obtain ⟨_, -, rfl⟩ := List.mem_map.mp h
  rfl

theorem sorted_checkKeys_append {found : Findings} (hsettings : HoldsSettings document path settings)
    (h : found.SortedIn document path names) :
    (checkKeys settings ++ found).SortedAt document path := by
  refine List.pairwise_append.mpr ⟨?_, h.sorted, ?_⟩
  · refine List.pairwise_map.mpr (List.pairwise_of_forall fun _ _ => ?_)
    exact .inr ⟨rfl, settings, by rwa [FieldPath.under_root]⟩
  · rintro entry hentry ⟨_, _⟩ hentry'
    obtain ⟨name, -, rest, rfl⟩ := h.within _ hentry'
    rw [eq_root_of_mem_checkKeys hentry]
    exact .inl (.ends _ _ _)

theorem exists_checkConfig_eq {config : Value} (hplace : Place .step path)
    (hentries : document.mappingAt? path = some entries)
    (hconfig : entries.field? "config" = some config) (hsettings : config.map? = some settings) :
    ∃ fields names, fields.SortedIn document (path.key "config") names
      ∧ checkConfig (chosenPlugin entries) entries
        = (checkKeys settings ++ fields).atKey "config" := by
  simp only [checkConfig, hconfig, checkMapping, hsettings]
  cases hchosen : chosenPlugin entries with
  | error defect => exact ⟨.none, [], sortedIn_none, rfl⟩
  | ok plugin =>
      have hlists : Lists document (path.key "config") (configKeys plugin) :=
        .settings hplace hentries (chosenPlugin_eq_ok_iff.mp hchosen)
      have hfields := sortedIn_checkFields hlists (List.Sublist.refl _) settings
      exact ⟨_, _, hfields.unknownKeys _ settings, rfl⟩

theorem sortedIn_checkConfig (hplace : Place .step path)
    (hentries : document.mappingAt? path = some entries) :
    (checkConfig (chosenPlugin entries) entries).SortedIn document path ["config"] := by
  cases hfield : entries.field? "config" with
  | none =>
      simp only [checkConfig, hfield]
      exact sortedIn_atKey (sorted_here _)
  | some config =>
      cases hmap : config.map? with
      | none =>
          simp only [checkConfig, hfield, checkMapping, hmap]
          exact sortedIn_atKey (sorted_here _)
      | some settings =>
          obtain ⟨fields, names, hfields, heq⟩ := exists_checkConfig_eq hplace hentries hfield hmap
          have hsettings : document.mappingAt? (path.key "config") = some settings := by
            rw [Value.mappingAt?, at?_key_of_field? hentries hfield]
            exact hmap
          rw [heq]
          exact sortedIn_atKey (sorted_checkKeys_append ⟨path, hplace, rfl, hsettings⟩ hfields)

/-! ### Elements -/

theorem sorted_checkAssertion (hplace : Place .assertion path)
    (hvalue : document.at? path = some value) : (checkAssertion value).SortedAt document path := by
  refine sorted_checkMapping hvalue fun entries hentries => ?_
  cases hchosen : chosenAssertion entries with
  | error defect => exact (sortedIn_atKey (sorted_here defect)).sorted
  | ok kind =>
      have hlists : Lists document path (assertionKeys kind) :=
        .assertion hplace hentries (chosenAssertion_eq_ok_iff.mp hchosen)
      have hfields := sortedIn_checkFields hlists (List.sublist_cons_self _ _) entries
      exact (hfields.unknownKeys _ entries).sorted

theorem sorted_checkCapture (hplace : Place .capture path)
    (hvalue : document.at? path = some value) : (checkCapture value).SortedAt document path := by
  refine sorted_checkMapping hvalue fun entries hentries => ?_
  have hlists : Lists document path captureKeys := .capture hplace
  have hfields := sortedIn_checkFields hlists (List.Sublist.refl _) entries
  exact (hfields.unknownKeys _ entries).sorted

theorem sortedIn_checkPlugin (plugin : Except Defect Plugin) :
    (checkPlugin plugin).SortedIn document path ["plugin"] := by
  cases plugin with
  | ok plugin => exact sortedIn_none
  | error defect => exact sortedIn_atKey (sorted_here defect)

theorem sortedIn_stepHeading (document : Value) (hplace : Place .step path) (entries : Entries) :
    (checkField entries nameRule ++ unknownKeys stepKeys entries
      ++ checkPlugin (chosenPlugin entries)).SortedIn document path ["name", "plugin"] := by
  have hname : (checkField entries nameRule).SortedIn document path ["name"] :=
    sortedIn_checkField entries nameRule
  have hplugin : (checkPlugin (chosenPlugin entries)).SortedIn document path ["plugin"] :=
    sortedIn_checkPlugin (chosenPlugin entries)
  exact (hname.unknownKeys stepKeys entries).append hplugin (.step hplace) (by decide)

theorem sorted_checkStep (hplace : Place .step path) (hvalue : document.at? path = some value) :
    (checkStep value).SortedAt document path := by
  refine sorted_checkMapping hvalue fun entries hentries => ?_
  have hlists : Lists document path _ := .step hplace
  have hconfig := (sortedIn_stepHeading document hplace entries).append
    (sortedIn_checkConfig hplace hentries) hlists (by decide)
  have hassertions := hconfig.append
    (sortedIn_checkAnyItems hentries .assertions hplace sorted_checkAssertion) hlists (by decide)
  have hcaptures := hassertions.append
    (sortedIn_checkAnyItems hentries .captures hplace sorted_checkCapture) hlists (by decide)
  exact hcaptures.sorted

theorem sorted_checkHolder {whole element : Element} {known : List String}
    {check : Value → Findings} (hplace : Place whole path) (hvalue : document.at? path = some value)
    (hlists : Lists document path ["name", "description", name])
    (hholds : whole.Holds name element)
    (h : ∀ {path value}, Place element path → document.at? path = some value →
      (check value).SortedAt document path) :
    (checkMapping value fun entries =>
      checkField entries nameRule ++ checkField entries descriptionRule ++ unknownKeys known entries
        ++ checkSomeItems name check entries).SortedAt document path := by
  refine sorted_checkMapping hvalue fun entries hentries => ?_
  have hheading := (sortedIn_checkField entries nameRule).append
    (sortedIn_checkField entries descriptionRule) hlists
    (List.sublist_append_left ["name", "description"] [name])
  have hitems := sortedIn_checkSomeItems hentries hholds hplace h
  exact ((hheading.unknownKeys known entries).append hitems hlists (List.Sublist.refl _)).sorted

theorem sorted_checkTest (hplace : Place .test path) (hvalue : document.at? path = some value) :
    (checkTest value).SortedAt document path :=
  sorted_checkHolder hplace hvalue (.test hplace) .steps sorted_checkStep

theorem sorted_checkSuite (hplace : Place .suite path) (hvalue : document.at? path = some value) :
    (checkSuite value).SortedAt document path :=
  sorted_checkHolder hplace hvalue (.suite hplace) .tests sorted_checkTest

/-! ### The settings of a step -/

theorem Findings.SortedIn.apart {found : Findings} (h : found.SortedIn document base names)
    (name : String) (hname : name ∉ names) : found.Apart (FieldPath.root.key name) := by
  rintro ⟨_, defect⟩ hentry
  obtain ⟨name', hname', rest, rfl⟩ := h.within _ hentry
  refine FieldPath.startsWith_eq_false_of_ne ?_ _ _
  rintro ⟨rfl⟩
  exact hname hname'

theorem HoldsSettings.exists_config (h : document.mappingAt? (path.key "config") = some settings) :
    ∃ value entries config, document.at? path = some value ∧ value.map? = some entries
      ∧ entries.field? "config" = some config ∧ config.map? = some settings := by
  obtain ⟨config, hconfig, hsettings⟩ := Option.bind_eq_some_iff.mp h
  rw [Value.at?_key] at hconfig
  obtain ⟨entries, hentries, hget⟩ := Option.bind_eq_some_iff.mp hconfig
  obtain ⟨value, hvalue, hmap⟩ := Option.bind_eq_some_iff.mp hentries
  have hnull : config.isNull = false := by
    rw [Value.isNull, Value.untag_eq_of_map? hsettings]
  exact ⟨value, entries, config, hvalue, hmap, by simp [Entries.field?, hget, Option.filter, hnull],
    hsettings⟩

theorem HoldsSettings.spliced (h : HoldsSettings document path settings) :
    ∃ fields names, fields.SortedIn document path names
      ∧ Spliced path (checkKeys settings ++ fields) (checkKeys settings ++ fields)
        (checkSuite document) (checkSuite document) := by
  obtain ⟨step, hplace, rfl, hsettings⟩ := h
  obtain ⟨value, entries, config, hvalue, hmap, hconfig, hconfigMap⟩ := exists_config hsettings
  have hentries : document.mappingAt? step = some entries := by
    rw [Value.mappingAt?, hvalue]
    exact hmap
  obtain ⟨fields, names, hfields, heq⟩ :=
    exists_checkConfig_eq hplace hentries hconfig hconfigMap
  have hheading := (sortedIn_stepHeading document hplace entries).apart "config" (by decide)
  have hassertions := (sortedIn_checkAnyItems hentries .assertions hplace
    sorted_checkAssertion).apart "config" (by decide)
  have hcaptures := (sortedIn_checkAnyItems hentries .captures hplace
    sorted_checkCapture).apart "config" (by decide)
  have hconfig : Spliced (FieldPath.root.key "config") (checkKeys settings ++ fields)
      (checkKeys settings ++ fields) (checkConfig (chosenPlugin entries) entries)
      (checkConfig (chosenPlugin entries) entries) := by
    rw [heq]
    exact spliced_self.atKey
  have hstep : Spliced (FieldPath.root.key "config") (checkKeys settings ++ fields)
      (checkKeys settings ++ fields) (checkStep value) (checkStep value) := by
    refine spliced_checkMapping hmap hmap ?_
    have haction := hconfig.append_left ⟨rfl, hheading⟩
    exact (haction.append_right ⟨rfl, hassertions⟩).append_right ⟨rfl, hcaptures⟩
  have hsuite := (hplace.spliced (Value.sameBut_self_iff.mpr hvalue)).trans hstep
  exact ⟨fields, names, hfields, hsuite⟩

theorem violations_checkKeys_under (settings : Entries) (path : FieldPath) :
    (checkKeys settings).violations.map (·.under path)
      = (settings.filter fun entry => entry.1.str?.isNone).map fun entry =>
        ⟨path, (Defect.keyNotText entry.1).message⟩ := by
  simp [checkKeys, Findings.violations, Violation.under, FieldPath.under_root]

theorem HoldsSettings.violations_eq (h : HoldsSettings document path settings) :
    ∃ before after, violations document = before
        ++ ((settings.filter fun entry => entry.1.str?.isNone).map fun entry =>
          ⟨path, (Defect.keyNotText entry.1).message⟩) ++ after
      ∧ ∀ violation ∈ before ++ after, violation.path ≠ path := by
  obtain ⟨fields, names, hfields, hspliced⟩ := h.spliced
  obtain ⟨before, after, hviolations, -, hapart⟩ := hspliced.violations_eq
  obtain ⟨hbefore, hafter⟩ := List.forall_mem_append.mp hapart
  refine ⟨before, fields.violations.map (·.under path) ++ after, ?_, ?_⟩
  · rw [Schema.violations, hviolations, violations_append, List.map_append,
      violations_checkKeys_under]
    simp only [List.append_assoc]
  · refine List.forall_mem_append.mpr ⟨?_, List.forall_mem_append.mpr ⟨?_, ?_⟩⟩
    · exact fun violation h => FieldPath.ne_of_startsWith_eq_false (hbefore violation h)
    · intro violation hviolation
      obtain ⟨inner, hinner, rfl⟩ := List.mem_map.mp hviolation
      obtain ⟨⟨_, defect⟩, hentry, rfl⟩ := List.mem_map.mp hinner
      obtain ⟨name, -, rest, rfl⟩ := hfields.within _ hentry
      exact FieldPath.under_key_ne path name rest
    · exact fun violation h => FieldPath.ne_of_startsWith_eq_false (hafter violation h)

/-- **Violations are in order.** Each violation is at a path after those before it, or at the same
path, and this only if the settings of a step are there. No other path is reported twice. What is
reported at settings is one row of violations, one for each key that is no string. -/
theorem violations_ordered (document : Value) :
    IsStrictOrder FieldPath (Precedes document)
    ∧ (violations document).Pairwise (fun earlier later =>
        Precedes document earlier.path later.path
          ∨ earlier.path = later.path ∧ ∃ settings, HoldsSettings document earlier.path settings)
    ∧ (∀ path, ((violations document).filter fun violation => violation.path = path).length ≤ 1
        ∨ ∃ settings, HoldsSettings document path settings)
    ∧ ∀ path settings, HoldsSettings document path settings →
        ∃ before after, violations document = before
            ++ ((settings.filter fun entry => entry.1.str?.isNone).map fun entry =>
              ⟨path, (Defect.keyNotText entry.1).message⟩) ++ after
          ∧ ∀ violation ∈ before ++ after, violation.path ≠ path := by
  have hsorted : (violations document).Pairwise (fun earlier later =>
      Follows document .root earlier.path later.path) :=
    List.pairwise_map.mpr (sorted_checkSuite .root rfl)
  have hirrefl (path : FieldPath) : ¬ Precedes document path path := Before.irrefl
  refine ⟨{ irrefl := hirrefl, trans := fun _ _ _ => Before.trans }, hsorted, ?_, ?_⟩
  · intro path
    have hreported := hsorted.filter fun violation => violation.path = path
    have hpath (violation : Violation)
        (h : violation ∈ (violations document).filter fun violation => violation.path = path) :
        violation.path = path := by simpa using (List.mem_filter.mp h).2
    match hlist : (violations document).filter fun violation => violation.path = path with
    | [] => exact .inl (by simp [hlist])
    | [_] => exact .inl (by simp [hlist])
    | first :: second :: _ =>
        rw [hlist] at hreported hpath
        have hfollows := List.rel_of_pairwise_cons hreported List.mem_cons_self
        rw [hpath first (by simp), hpath second (by simp)] at hfollows
        exact .inr (hfollows.resolve_left (hirrefl path)).2
  · exact fun path settings h => h.violations_eq

theorem violations_ordered_two_keys :
    let settings : Entries := [(.str "method", .str "fetch"), (.int 1, .null), (.str "headers", .seq []),
      (.bool true, .null)]
    let step : Value := .map [(.str "save", .null), (.str "config", .tagged "k" (.map settings)),
      (.str "plugin", .str "http")]
    let document : Value := .map [(.str "tests", .seq [.map [(.str "steps", .seq [step])]])]
    let path : FieldPath := ⟨[.key "tests", .index 0, .key "steps", .index 0, .key "config"]⟩
    HoldsSettings document path settings ∧ (violations document).length = 8
      ∧ ∃ before after, violations document = before
          ++ [⟨path, "keys must be strings, found a number"⟩,
            ⟨path, "keys must be strings, found a boolean"⟩] ++ after
        ∧ ∀ violation ∈ before ++ after, violation.path ≠ path := by
  intro settings step document path
  have hsettings : HoldsSettings document path settings :=
    ⟨_, .item .steps (.item .tests .root 0) 0, rfl, rfl⟩
  exact ⟨hsettings, by decide +kernel, (violations_ordered document).2.2.2 path settings hsettings⟩

end ApiSuite.Schema
