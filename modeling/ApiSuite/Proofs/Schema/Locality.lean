import ApiSuite.Proofs.Schema.Elements
import ApiSuite.Proofs.Schema.Findings

/-!
# Violations are local

What is found in an element goes into what is found in the document in one piece, with the place of
the element in front of its paths. What stands around that piece depends on the rest of the document,
and none of it is at the place of the element or below. So another element in the same place changes
the piece and nothing else, and the same element in another place gives the same piece.
-/

namespace ApiSuite.Schema

/-- A violation of a part, where the part lies at `base`. -/
def Violation.under (base : FieldPath) (violation : Violation) : Violation :=
  ⟨base.under violation.path, violation.message⟩

namespace Findings

variable {path base : FieldPath} {found found' inner inner' other other' : Findings}

def Apart (path : FieldPath) (found : Findings) : Prop :=
  ∀ entry ∈ found.defects, entry.1.startsWith path = false

structure Beside (path : FieldPath) (found found' : Findings) : Prop where
  same : found.defects = found'.defects
  apart : found.Apart path

/-- The same defects but for one piece, which is what was found at the path. -/
def Spliced (path : FieldPath) (inner inner' found found' : Findings) : Prop :=
  ∃ before after : Findings,
    found.defects = (before ++ inner.under path ++ after).defects
      ∧ found'.defects = (before ++ inner'.under path ++ after).defects
      ∧ before.Apart path ∧ after.Apart path

/-! ### Findings away from a path -/

theorem Apart.append (h : found.Apart path) (h' : other.Apart path) : (found ++ other).Apart path :=
  List.forall_mem_append.mpr ⟨h, h'⟩

theorem Apart.further (h : found.Apart base) (path : FieldPath) : found.Apart (base.under path) :=
  fun entry hentry => FieldPath.startsWith_under_eq_false (h entry hentry) path

theorem Apart.under (h : found.Apart path) (base : FieldPath) :
    (found.under base).Apart (base.under path) := by
  rintro ⟨place, defect⟩ hentry
  obtain ⟨rest, hrest, rfl⟩ := mem_defects_under.mp hentry
  rw [FieldPath.under_startsWith_under]
  exact h _ hrest

theorem apart_under_of_ne {first first' : Segment} (hne : first ≠ first') (found : Findings)
    (rest : List Segment) : (found.under ⟨[first]⟩).Apart ⟨first' :: rest⟩ := by
  rintro ⟨place, defect⟩ hentry
  obtain ⟨inner, -, rfl⟩ := mem_defects_under.mp hentry
  exact FieldPath.startsWith_eq_false_of_ne hne _ _

theorem Beside.append (h : Beside path found found') (h' : Beside path other other') :
    Beside path (found ++ other) (found' ++ other') := by
  refine ⟨?_, h.apart.append h'.apart⟩
  rw [defects_append, defects_append, h.same, h'.same]

theorem beside_none : Beside path Findings.none Findings.none :=
  ⟨rfl, nofun⟩

theorem beside_unknownKeys (known : List String) (entries entries' : Entries) :
    Beside path (unknownKeys known entries) (unknownKeys known entries') :=
  ⟨rfl, nofun⟩

theorem beside_atKey {name name' : String} {i : Nat} (hname : name ≠ name')
    (hsame : found = found') :
    Beside ((FieldPath.root.key name').index i) (found.atKey name) (found'.atKey name) := by
  refine ⟨by rw [hsame], apart_under_of_ne ?_ found [.index i]⟩
  simpa using hname

/-! ### One piece -/

theorem spliced_self : Spliced .root inner inner' inner inner' := by
  refine ⟨Findings.none, Findings.none, ?_, ?_, nofun, nofun⟩
  · simp [defects_append, defects_under_root, Findings.none]
  · simp [defects_append, defects_under_root, Findings.none]

theorem Spliced.append_left (h : Spliced path inner inner' found found')
    (hbeside : Beside path other other') :
    Spliced path inner inner' (other ++ found) (other' ++ found') := by
  obtain ⟨before, after, hfound, hfound', hbefore, hafter⟩ := h
  refine ⟨other ++ before, after, ?_, ?_, hbeside.apart.append hbefore, hafter⟩
  · simp [defects_append, hfound]
  · simp [defects_append, hfound', hbeside.same]

theorem Spliced.append_right (h : Spliced path inner inner' found found')
    (hbeside : Beside path other other') :
    Spliced path inner inner' (found ++ other) (found' ++ other') := by
  obtain ⟨before, after, hfound, hfound', hbefore, hafter⟩ := h
  refine ⟨before, after ++ other, ?_, ?_, hbefore, hafter.append hbeside.apart⟩
  · simp [defects_append, hfound]
  · simp [defects_append, hfound', hbeside.same]

theorem Spliced.trans {middle middle' : Findings}
    (houter : Spliced base middle middle' found found')
    (hinner : Spliced path inner inner' middle middle') :
    Spliced (base.under path) inner inner' found found' := by
  obtain ⟨before, after, hfound, hfound', hbefore, hafter⟩ := houter
  obtain ⟨first, last, hmiddle, hmiddle', hfirst, hlast⟩ := hinner
  -- What is around the inner piece is in the outer one, so it is at `base`, but not at `path` there.
  refine ⟨before ++ first.under base, last.under base ++ after, ?_, ?_, ?_, ?_⟩
  · rw [hfound]
    simp [defects_append, defects_under_congr base hmiddle, defects_under_append,
      defects_under_under]
  · rw [hfound']
    simp [defects_append, defects_under_congr base hmiddle', defects_under_append,
      defects_under_under]
  · exact (hbefore.further path).append (hfirst.under base)
  · exact (hlast.under base).append (hafter.further path)

theorem apart_join {parts : List Findings} (h : ∀ part ∈ parts, part.Apart path) :
    (join parts).Apart path := by
  intro entry hentry
  rw [defects_join] at hentry
  obtain ⟨part, hpart, hentry⟩ := List.mem_flatMap.mp hentry
  exact h part hpart entry hentry

theorem spliced_ofItems {check : Value → Findings} (before after : List Value) (a b : Value) :
    Spliced (FieldPath.root.index before.length) (check a) (check b)
      (ofItems check (before ++ a :: after)) (ofItems check (before ++ b :: after)) := by
  refine ⟨ofItems check before, join (after.mapIdx fun i item =>
    (check item).under (FieldPath.root.index (i + 1 + before.length))), ?_, ?_, ?_, ?_⟩
  · simp [ofItems, defects_append, defects_join, List.mapIdx_append, List.mapIdx_cons]
  · simp [ofItems, defects_append, defects_join, List.mapIdx_append, List.mapIdx_cons]
  · refine apart_join fun part hpart => ?_
    obtain ⟨i, hi, rfl⟩ := List.mem_mapIdx.mp hpart
    refine apart_under_of_ne ?_ _ []
    rw [ne_eq, Segment.index.injEq]
    omega
  · refine apart_join fun part hpart => ?_
    obtain ⟨i, hi, rfl⟩ := List.mem_mapIdx.mp hpart
    refine apart_under_of_ne ?_ _ []
    rw [ne_eq, Segment.index.injEq]
    omega

theorem Spliced.atKey {name : String} (h : Spliced path inner inner' found found') :
    Spliced ((FieldPath.root.key name).under path) inner inner' (found.atKey name)
      (found'.atKey name) := by
  refine Spliced.trans ⟨Findings.none, Findings.none, ?_, ?_, nofun, nofun⟩ h
  · simp [defects_append, Findings.atKey, Findings.none]
  · simp [defects_append, Findings.atKey, Findings.none]

/-! ### Violations of the piece and around it -/

theorem violations_append (found other : Findings) :
    (found ++ other).violations = found.violations ++ other.violations :=
  List.map_append

theorem violations_under (base : FieldPath) (found : Findings) :
    (found.under base).violations = found.violations.map (·.under base) := by
  simp [violations, under, Violation.under]

theorem Apart.forall_violations (h : found.Apart path) :
    ∀ violation ∈ found.violations, violation.path.startsWith path = false := by
  intro violation hviolation
  obtain ⟨entry, hentry, rfl⟩ := List.mem_map.mp hviolation
  exact h entry hentry

theorem Spliced.violations_eq (h : Spliced path inner inner' found found') :
    ∃ before after : List Violation,
      found.violations = before ++ inner.violations.map (·.under path) ++ after
        ∧ found'.violations = before ++ inner'.violations.map (·.under path) ++ after
        ∧ ∀ violation ∈ before ++ after, violation.path.startsWith path = false := by
  obtain ⟨before, after, hfound, hfound', hbefore, hafter⟩ := h
  refine ⟨before.violations, after.violations, ?_, ?_, ?_⟩
  · rw [← violations_under, ← violations_append, ← violations_append, violations, hfound]
    rfl
  · rw [← violations_under, ← violations_append, ← violations_append, violations, hfound']
    rfl
  · rw [← violations_append]
    exact (hbefore.append hafter).forall_violations

theorem Spliced.filter_not_startsWith (h : Spliced path inner inner' found found') :
    found.violations.filter (fun violation => !violation.path.startsWith path)
      = found'.violations.filter fun violation => !violation.path.startsWith path := by
  obtain ⟨before, after, hfound, hfound', hapart⟩ := h.violations_eq
  obtain ⟨hbefore, hafter⟩ := List.forall_mem_append.mp hapart
  have hpiece (part : List Violation) :
      (part.map (·.under path)).filter (fun violation => !violation.path.startsWith path) = [] := by
    simp [List.filter_eq_nil_iff, Violation.under, FieldPath.startsWith_under]
  rw [hfound, hfound']
  simp only [List.filter_append, hpiece]

theorem Spliced.filter_startsWith (h : Spliced path inner inner' found found') :
    found.violations.filter (fun violation => violation.path.startsWith path)
      = inner.violations.map (·.under path) := by
  obtain ⟨before, after, hfound, -, hapart⟩ := h.violations_eq
  obtain ⟨hbefore, hafter⟩ := List.forall_mem_append.mp hapart
  have hpiece : (inner.violations.map (·.under path)).filter
      (fun violation => violation.path.startsWith path) = inner.violations.map (·.under path) := by
    simp [List.filter_eq_self, Violation.under, FieldPath.startsWith_under]
  have hnone {around : List Violation}
      (h : ∀ violation ∈ around, violation.path.startsWith path = false) :
      around.filter (fun violation => violation.path.startsWith path) = [] := by
    rw [List.filter_eq_nil_iff]
    intro violation hviolation
    simp [h violation hviolation]
  rw [hfound, List.filter_append, List.filter_append, hpiece, hnone hbefore, hnone hafter]
  simp

end Findings

open Findings (Beside Spliced)

/-! ### Mappings that differ in one item -/

variable {entries entries' : Entries} {name : String} {i : Nat} {a b : Value}

/-- Two mappings with the same fields, but for one item of a sequence. -/
structure SameButItem (name : String) (i : Nat) (a b : Value) (entries entries' : Entries) :
    Prop where
  others : ∀ other, other ≠ name → entries.get? other = entries'.get? other
  items : ∃ before after, before.length = i
    ∧ (entries.field? name >>= Value.seq?) = some (before ++ a :: after)
    ∧ (entries'.field? name >>= Value.seq?) = some (before ++ b :: after)

theorem field?_append_cons {before after : Entries} {value : Value} {items : List Value}
    (hfirst : ∀ entry ∈ before, entry.1.isKey name = false) (hseq : value.seq? = some items) :
    (Entries.field? (before ++ (.str name, value) :: after) name >>= Value.seq?) = some items := by
  have hnull : value.isNull = false := by
    rw [Value.isNull, Value.untag_eq_of_seq? hseq]
  rw [Entries.field?, Entries.get?_append_cons hfirst]
  simp [Option.filter, hnull, hseq]

theorem sameButItem_of_sameBut {v w : Value}
    (h : Value.SameBut a b [.key name, .index i] v w) :
    ∃ entries entries', v.map? = some entries ∧ w.map? = some entries'
      ∧ SameButItem name i a b entries entries' := by
  obtain ⟨before, after, inner, inner', hfirst, hv, hw, hinner⟩ := h.exists_entries
  obtain ⟨earlier, later, item, item', hi, hseq, hseq', hitem⟩ := hinner.exists_items
  obtain ⟨rfl, rfl⟩ := hitem.eq_of_nil
  refine ⟨_, _, hv, hw, ?_, earlier, later, hi, ?_, ?_⟩
  · intro other hother
    exact Entries.get?_append_cons_of_ne hother inner inner'
  · exact field?_append_cons hfirst hseq
  · exact field?_append_cons hfirst hseq'

theorem checkSomeItems_eq {check : Value → Findings} {items : List Value}
    (h : (entries.field? name >>= Value.seq?) = some items) (hne : items ≠ []) :
    checkSomeItems name check entries = (Findings.ofItems check items).atKey name := by
  obtain ⟨value, hfield, hseq⟩ := Option.bind_eq_some_iff.mp h
  obtain ⟨item, rest, rfl⟩ := List.exists_cons_of_ne_nil hne
  simp [checkSomeItems, hfield, hseq, checkSequence]

theorem checkAnyItems_eq {check : Value → Findings} {items : List Value}
    (h : (entries.field? name >>= Value.seq?) = some items) :
    checkAnyItems name check entries = (Findings.ofItems check items).atKey name := by
  obtain ⟨value, hfield, hseq⟩ := Option.bind_eq_some_iff.mp h
  simp [checkAnyItems, hfield, hseq, checkSequence]

namespace SameButItem

variable (h : SameButItem name i a b entries entries')
include h

theorem beside_checkField (rule : FieldRule) (hne : rule.name ≠ name) :
    Beside ((FieldPath.root.key name).index i) (checkField entries rule)
      (checkField entries' rule) := by
  refine Findings.beside_atKey hne ?_
  simp only [FieldRule.value?, Entries.field?, h.others _ hne]

theorem beside_checkAnyItems (other : String) (check : Value → Findings) (hne : other ≠ name) :
    Beside ((FieldPath.root.key name).index i) (checkAnyItems other check entries)
      (checkAnyItems other check entries') := by
  refine Findings.beside_atKey hne ?_
  simp only [Entries.field?, h.others _ hne]

theorem beside_checkPlugin (hne : "plugin" ≠ name) :
    Beside ((FieldPath.root.key name).index i) (checkPlugin (chosenPlugin entries))
      (checkPlugin (chosenPlugin entries')) := by
  have hsame : chosenPlugin entries = chosenPlugin entries' := by
    simp only [chosenPlugin, choice, Entries.field?, h.others _ hne]
  rw [← hsame]
  cases chosenPlugin entries with
  | error defect => exact Findings.beside_atKey hne rfl
  | ok plugin => exact Findings.beside_none

theorem beside_checkConfig (hplugin : "plugin" ≠ name) (hconfig : "config" ≠ name) :
    Beside ((FieldPath.root.key name).index i) (checkConfig (chosenPlugin entries) entries)
      (checkConfig (chosenPlugin entries') entries') := by
  refine Findings.beside_atKey hconfig ?_
  simp only [chosenPlugin, choice, Entries.field?, h.others _ hplugin, h.others _ hconfig]

theorem spliced_checkSomeItems (check : Value → Findings) :
    Spliced ((FieldPath.root.key name).index i) (check a) (check b)
      (checkSomeItems name check entries) (checkSomeItems name check entries') := by
  obtain ⟨before, after, rfl, hitems, hitems'⟩ := h.items
  rw [checkSomeItems_eq hitems (by simp), checkSomeItems_eq hitems' (by simp)]
  exact (Findings.spliced_ofItems before after a b).atKey

theorem spliced_checkAnyItems (check : Value → Findings) :
    Spliced ((FieldPath.root.key name).index i) (check a) (check b)
      (checkAnyItems name check entries) (checkAnyItems name check entries') := by
  obtain ⟨before, after, rfl, hitems, hitems'⟩ := h.items
  rw [checkAnyItems_eq hitems, checkAnyItems_eq hitems']
  exact (Findings.spliced_ofItems before after a b).atKey

end SameButItem

/-! ### Elements -/

theorem spliced_checkMapping {path : FieldPath} {check : Entries → Findings}
    {inner inner' : Findings} {v w : Value} (hv : v.map? = some entries)
    (hw : w.map? = some entries') (h : Spliced path inner inner' (check entries) (check entries')) :
    Spliced path inner inner' (checkMapping v check) (checkMapping w check) := by
  simpa only [checkMapping, hv, hw] using h

theorem SameButItem.spliced_holder {known : List String} (check : Value → Findings)
    (h : SameButItem name i a b entries entries') (hname : "name" ≠ name)
    (hdescription : "description" ≠ name) :
    Spliced ((FieldPath.root.key name).index i) (check a) (check b)
      (checkField entries nameRule ++ checkField entries descriptionRule
        ++ unknownKeys known entries ++ checkSomeItems name check entries)
      (checkField entries' nameRule ++ checkField entries' descriptionRule
        ++ unknownKeys known entries' ++ checkSomeItems name check entries') := by
  refine (h.spliced_checkSomeItems check).append_left ?_
  have hheading := (h.beside_checkField nameRule hname).append
    (h.beside_checkField descriptionRule hdescription)
  exact hheading.append (Findings.beside_unknownKeys known entries entries')

theorem SameButItem.beside_action (h : SameButItem name i a b entries entries')
    (hname : "name" ≠ name) (hplugin : "plugin" ≠ name) (hconfig : "config" ≠ name) :
    Beside ((FieldPath.root.key name).index i)
      (checkField entries nameRule ++ unknownKeys stepKeys entries
        ++ checkPlugin (chosenPlugin entries) ++ checkConfig (chosenPlugin entries) entries)
      (checkField entries' nameRule ++ unknownKeys stepKeys entries'
        ++ checkPlugin (chosenPlugin entries')
        ++ checkConfig (chosenPlugin entries') entries') := by
  have hknown := (h.beside_checkField nameRule hname).append
    (Findings.beside_unknownKeys stepKeys entries entries')
  exact (hknown.append (h.beside_checkPlugin hplugin)).append
    (h.beside_checkConfig hplugin hconfig)

theorem Element.Holds.spliced {whole element : Element} {v w : Value}
    (hholds : whole.Holds name element) (h : Value.SameBut a b [.key name, .index i] v w) :
    Spliced ((FieldPath.root.key name).index i) (element.check a) (element.check b)
      (whole.check v) (whole.check w) := by
  obtain ⟨entries, entries', hv, hw, hsame⟩ := sameButItem_of_sameBut h
  cases hholds with
  | tests =>
      exact spliced_checkMapping hv hw (hsame.spliced_holder checkTest (by decide) (by decide))
  | steps =>
      exact spliced_checkMapping hv hw (hsame.spliced_holder checkStep (by decide) (by decide))
  | assertions =>
      refine spliced_checkMapping hv hw ?_
      have haction := hsame.beside_action (by decide) (by decide) (by decide)
      have hassertions := (hsame.spliced_checkAnyItems checkAssertion).append_left haction
      exact hassertions.append_right (hsame.beside_checkAnyItems "save" checkCapture (by decide))
  | captures =>
      refine spliced_checkMapping hv hw ?_
      have haction := hsame.beside_action (by decide) (by decide) (by decide)
      have hassertions := hsame.beside_checkAnyItems "assertions" checkAssertion (by decide)
      exact (hsame.spliced_checkAnyItems checkCapture).append_left (haction.append hassertions)

theorem Place.spliced {element : Element} {path : FieldPath} {document document' : Value}
    (hplace : Place element path) (h : Value.SameBut a b path.segments document document') :
    Spliced path (element.check a) (element.check b) (checkSuite document)
      (checkSuite document') := by
  -- On the way to the element, each holder's findings are a piece of the document's, and those of
  -- what it holds a piece of that piece.
  induction hplace generalizing a b with
  | root =>
      obtain ⟨rfl, rfl⟩ := h.eq_of_nil
      exact Findings.spliced_self
  | @item whole element name path hholds hplace i ih =>
      have hsegments : ((path.key name).index i).segments
          = path.segments ++ [.key name, .index i] := by
        simp [FieldPath.key, FieldPath.index]
      rw [hsegments] at h
      obtain ⟨m, m', houter, hinner⟩ := h.split
      have hpath : (path.key name).index i = path.under ((FieldPath.root.key name).index i) := by
        rw [FieldPath.under_index, FieldPath.under_key, FieldPath.under_root]
      rw [hpath]
      exact (ih houter).trans (hholds.spliced hinner)

/-- **Violations are local.** What lies at the place of an element has no influence on the
violations that are not at this place or below. The violations there depend on nothing else: wherever
the element stands, they are the same but for the place. -/
theorem violations_local :
    (∀ element path a b document document', Place element path →
      Value.SameBut a b path.segments document document' →
        (violations document).filter (fun violation => !violation.path.startsWith path)
          = (violations document').filter fun violation => !violation.path.startsWith path)
    ∧ ∀ element path path' value document document', Place element path → Place element path' →
      document.at? path = some value → document'.at? path' = some value →
        ∃ own : List Violation,
          (violations document).filter (fun violation => violation.path.startsWith path)
              = own.map (·.under path)
            ∧ (violations document').filter (fun violation => violation.path.startsWith path')
              = own.map (·.under path') := by
  constructor
  · intro element path a b document document' hplace h
    exact (hplace.spliced h).filter_not_startsWith
  · intro element path path' value document document' hplace hplace' hvalue hvalue'
    have hself := Value.sameBut_self_iff.mpr hvalue
    have hself' := Value.sameBut_self_iff.mpr hvalue'
    exact ⟨(element.check value).violations, (hplace.spliced hself).filter_startsWith,
      (hplace'.spliced hself').filter_startsWith⟩

theorem violations_local_capture :
    let capture : Value := .map [(.str "json_path", .str " "), (.str "as", .str "1x")]
    let step (captures : List Value) : Value :=
      .map [(.str "plugin", .str "ftp"), (.str "save", .tagged "k" (.seq captures))]
    let document (captures : List Value) : Value :=
      .map [(.str "tests", .seq [.null, .map [(.str "steps", .seq [step captures])]])]
    let place (i : Nat) : FieldPath :=
      ⟨[.key "tests", .index 1, .key "steps", .index 0, .key "save", .index i]⟩
    (violations (document [capture])).filter (fun violation => !violation.path.startsWith (place 0))
        = (violations (document [.int 7])).filter
          (fun violation => !violation.path.startsWith (place 0))
      ∧ ∃ own : List Violation, own.length = 2
        ∧ (violations (document [capture])).filter
            (fun violation => violation.path.startsWith (place 0)) = own.map (·.under (place 0))
        ∧ (violations (document [.null, capture])).filter
            (fun violation => violation.path.startsWith (place 1))
              = own.map (·.under (place 1)) := by
  intro capture step document place
  have hplace (i : Nat) : Place .capture (place i) :=
    .item .captures (.item .steps (.item .tests .root 1) 0) i
  have hsame : Value.SameBut capture (.int 7) (place 0).segments (document [capture])
      (document [.int 7]) :=
    .field [] "tests" [] nofun <| .item [.null] [] <| .field [] "steps" [] nofun <| .item [] [] <|
      .field [(.str "plugin", .str "ftp")] "save" [] (by decide) <| .tagged "k" <| .item [] [] .here
  obtain ⟨own, hown, hown'⟩ := violations_local.2 .capture (place 0) (place 1) capture
    (document [capture]) (document [.null, capture]) (hplace 0) (hplace 1) rfl rfl
  refine ⟨violations_local.1 _ _ _ _ _ _ (hplace 0) hsame, own, ?_, hown, hown'⟩
  have hlength := congrArg List.length hown
  rw [List.length_map] at hlength
  rw [← hlength]
  decide +kernel

end ApiSuite.Schema
