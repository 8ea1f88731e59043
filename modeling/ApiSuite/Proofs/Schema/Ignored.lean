import ApiSuite.Proofs.Schema.Order
import Mathlib.Data.List.Count

/-!
# Fields that are ignored

What an element is told to ignore is among what the document is told to ignore, with the place of the
element in front, and an element notes the keys that are no fields of its kind. Keys are read through
tags here, and only those that are strings are noted, while fields are looked up by untagged strings.
So a key that is neither may go without a note.
-/

namespace ApiSuite.Schema

variable {path base : FieldPath} {name text : String} {entries : Entries} {value : Value}

namespace Findings

variable {found other inner middle : Findings}

/-- Nothing is noted at the path or further down. -/
def SilentAt (path : FieldPath) (found : Findings) : Prop :=
  ∀ place ∈ found.unknown, place.startsWith path = false

/-- What is noted at the path and further down is what is noted in the inner part. -/
def NotesAt (path : FieldPath) (inner found : Findings) : Prop :=
  found.unknown.filter (·.startsWith path) = inner.unknown.map path.under

theorem unknown_append (found other : Findings) :
    (found ++ other).unknown = found.unknown ++ other.unknown := rfl

theorem unknown_join (parts : List Findings) :
    (join parts).unknown = parts.flatMap (·.unknown) := by
  induction parts with
  | nil => rfl
  | cons part parts ih =>
      rw [List.flatMap_cons, ← ih]
      rfl

theorem silentAt_of_unknown_eq_nil (h : found.unknown = []) : found.SilentAt path := by
  intro place hplace
  rw [h] at hplace
  cases hplace

theorem SilentAt.append (h : found.SilentAt path) (h' : other.SilentAt path) :
    (found ++ other).SilentAt path :=
  List.forall_mem_append.mpr ⟨h, h'⟩

theorem silentAt_under_of_ne {first first' : Segment} (hne : first ≠ first') (found : Findings)
    (rest : List Segment) : (found.under ⟨[first]⟩).SilentAt ⟨first' :: rest⟩ := by
  intro place hplace
  obtain ⟨inner, -, rfl⟩ := List.mem_map.mp hplace
  exact FieldPath.startsWith_eq_false_of_ne hne _ _

theorem silentAt_atKey {i : Nat} {name' : String} (hne : name ≠ name') (found : Findings) :
    (found.atKey name).SilentAt ((FieldPath.root.key name').index i) :=
  silentAt_under_of_ne (by simpa using hne) found [.index i]

theorem SilentAt.filter_eq_nil (h : found.SilentAt path) :
    found.unknown.filter (·.startsWith path) = [] := by
  rw [List.filter_eq_nil_iff]
  intro place hplace
  simp [h place hplace]

theorem notesAt_root (found : Findings) : NotesAt .root found found := by
  have hunder : FieldPath.root.under = id := rfl
  have hall : ∀ place ∈ found.unknown, place.startsWith .root = true := by
    intro place _
    rw [FieldPath.startsWith_iff]
    exact ⟨place, (FieldPath.root_under place).symm⟩
  rw [NotesAt, List.filter_eq_self.mpr hall, hunder, List.map_id]

theorem NotesAt.append_left (h : NotesAt path inner found) (hother : other.SilentAt path) :
    NotesAt path inner (other ++ found) := by
  rw [NotesAt, unknown_append, List.filter_append, hother.filter_eq_nil, List.nil_append]
  exact h

theorem NotesAt.append_right (h : NotesAt path inner found) (hother : other.SilentAt path) :
    NotesAt path inner (found ++ other) := by
  rw [NotesAt, unknown_append, List.filter_append, hother.filter_eq_nil, List.append_nil]
  exact h

theorem NotesAt.under (h : NotesAt path inner found) (base : FieldPath) :
    NotesAt (base.under path) inner (found.under base) := by
  have hfilter : (fun place : FieldPath => place.startsWith (base.under path)) ∘ base.under =
      fun place => place.startsWith path := by
    funext place
    exact FieldPath.under_startsWith_under base
  have hmap : (base.under path).under = base.under ∘ path.under := by
    funext place
    exact FieldPath.under_assoc base path place
  rw [NotesAt, Findings.under, List.filter_map, hfilter, hmap, ← List.map_map]
  exact congrArg (List.map base.under) h

theorem NotesAt.trans (houter : NotesAt base middle found) (hinner : NotesAt path inner middle) :
    NotesAt (base.under path) inner found := by
  have hfilter : found.unknown.filter (·.startsWith (base.under path)) =
      (found.unknown.filter (·.startsWith base)).filter (·.startsWith (base.under path)) := by
    rw [List.filter_filter]
    refine List.filter_congr fun place _ => ?_
    cases hplace : place.startsWith base with
    | true => simp
    | false => simp [FieldPath.startsWith_under_eq_false hplace path]
  have hwhole : (middle.under base).unknown = found.unknown.filter (·.startsWith base) := houter.symm
  rw [NotesAt, hfilter, ← hwhole]
  exact hinner.under base

theorem silentAt_join_mapIdx {check : Value → Findings} {items : List Value} {index : Nat → Nat}
    {n : Nat} (h : ∀ i < items.length, index i ≠ n) :
    (join (items.mapIdx fun i item =>
      (check item).under (FieldPath.root.index (index i)))).SilentAt (FieldPath.root.index n) := by
  intro place hplace
  rw [unknown_join] at hplace
  obtain ⟨part, hpart, hplace⟩ := List.mem_flatMap.mp hplace
  obtain ⟨i, hi, rfl⟩ := List.mem_mapIdx.mp hpart
  refine silentAt_under_of_ne ?_ (check items[i]) [] place hplace
  simpa using h i hi

theorem notesAt_ofItems {check : Value → Findings} (before after : List Value) (item : Value) :
    NotesAt (FieldPath.root.index before.length) (check item)
      (ofItems check (before ++ item :: after)) := by
  let rest := join (after.mapIdx fun i item =>
    (check item).under (FieldPath.root.index (i + 1 + before.length)))
  have hsplit : (ofItems check (before ++ item :: after)).unknown =
      (ofItems check before ++ (check item).under (FieldPath.root.index before.length)
        ++ rest).unknown := by
    simp [rest, ofItems, unknown_append, unknown_join, List.mapIdx_append, List.mapIdx_cons]
  have hpiece := (notesAt_root (check item)).under (FieldPath.root.index before.length)
  rw [FieldPath.under_root] at hpiece
  have hbefore : (ofItems check before).SilentAt (FieldPath.root.index before.length) :=
    silentAt_join_mapIdx fun i hi => Nat.ne_of_lt hi
  have hrest : rest.SilentAt (FieldPath.root.index before.length) :=
    silentAt_join_mapIdx fun i _ => by omega
  rw [NotesAt, hsplit]
  exact (hpiece.append_left hbefore).append_right hrest

end Findings

open Findings (SilentAt NotesAt)

/-! ### Elements in the whole -/

theorem unknown_checkField (entries : Entries) (rule : FieldRule) :
    (checkField entries rule).unknown = [] := by
  unfold checkField
  split
  · split <;> rfl
  · split <;> rfl

theorem unknown_checkFields (rules : List FieldRule) (entries : Entries) :
    (checkFields rules entries).unknown = [] := by
  rw [checkFields, Findings.unknown_join, List.flatMap_map]
  simp [unknown_checkField]

theorem unknown_checkPlugin (plugin : Except Defect Plugin) : (checkPlugin plugin).unknown = [] := by
  cases plugin <;> rfl

theorem silentAt_checkField {rule : FieldRule} : (checkField entries rule).SilentAt path :=
  Findings.silentAt_of_unknown_eq_nil (unknown_checkField entries rule)

theorem silentAt_checkPlugin {plugin : Except Defect Plugin} : (checkPlugin plugin).SilentAt path :=
  Findings.silentAt_of_unknown_eq_nil (unknown_checkPlugin plugin)

theorem silentAt_unknownKeys {known : List String} {i : Nat} :
    (unknownKeys known entries).SilentAt ((FieldPath.root.key name).index i) := by
  intro place hplace
  obtain ⟨text, -, rfl⟩ := List.mem_map.mp hplace
  simp [FieldPath.startsWith, FieldPath.key, FieldPath.index, FieldPath.root, List.isPrefixOf]

variable {whole element : Element} {document item : Value} {items : List Value} {i : Nat}

theorem notesAt_checkAnyItems {check : Value → Findings}
    (hitems : (entries.field? name >>= Value.seq?) = some items) (hitem : items[i]? = some item) :
    NotesAt ((FieldPath.root.key name).index i) (check item) (checkAnyItems name check entries) := by
  obtain ⟨before, after, rfl, rfl⟩ := exists_split_of_getElem? hitem
  rw [checkAnyItems_eq hitems]
  exact (Findings.notesAt_ofItems before after item).under (FieldPath.root.key name)

theorem notesAt_checkSomeItems {check : Value → Findings}
    (hitems : (entries.field? name >>= Value.seq?) = some items) (hitem : items[i]? = some item) :
    NotesAt ((FieldPath.root.key name).index i) (check item) (checkSomeItems name check entries) := by
  obtain ⟨before, after, rfl, rfl⟩ := exists_split_of_getElem? hitem
  rw [checkSomeItems_eq hitems (by simp)]
  exact (Findings.notesAt_ofItems before after item).under (FieldPath.root.key name)

theorem silentAt_action (hconfig : "config" ≠ name) :
    (checkField entries nameRule ++ unknownKeys stepKeys entries
      ++ checkPlugin (chosenPlugin entries)
      ++ checkConfig (chosenPlugin entries) entries).SilentAt ((FieldPath.root.key name).index i) :=
  ((silentAt_checkField.append silentAt_unknownKeys).append silentAt_checkPlugin).append
    (Findings.silentAt_atKey hconfig _)

theorem notesAt_holder {known : List String} {check : Value → Findings}
    (hitems : (entries.field? name >>= Value.seq?) = some items) (hitem : items[i]? = some item) :
    NotesAt ((FieldPath.root.key name).index i) (check item)
      (checkField entries nameRule ++ checkField entries descriptionRule
        ++ unknownKeys known entries ++ checkSomeItems name check entries) := by
  refine (notesAt_checkSomeItems hitems hitem).append_left ?_
  exact (silentAt_checkField.append silentAt_checkField).append silentAt_unknownKeys

theorem Element.Holds.notesAt (hholds : whole.Holds name element) (hmap : value.map? = some entries)
    (hitems : (entries.field? name >>= Value.seq?) = some items) (hitem : items[i]? = some item) :
    NotesAt ((FieldPath.root.key name).index i) (element.check item) (whole.check value) := by
  cases hholds with
  | tests =>
      simp only [Element.check, checkSuite, checkMapping, hmap]
      exact notesAt_holder hitems hitem
  | steps =>
      simp only [Element.check, checkTest, checkMapping, hmap]
      exact notesAt_holder hitems hitem
  | assertions =>
      simp only [Element.check, checkStep, checkMapping, hmap]
      refine NotesAt.append_right ?_ (Findings.silentAt_atKey (by decide) _)
      exact (notesAt_checkAnyItems hitems hitem).append_left (silentAt_action (by decide))
  | captures =>
      simp only [Element.check, checkStep, checkMapping, hmap]
      refine (notesAt_checkAnyItems hitems hitem).append_left ?_
      exact (silentAt_action (by decide)).append (Findings.silentAt_atKey (by decide) _)

theorem Place.notesAt (hplace : Place element path) (hvalue : document.at? path = some value) :
    NotesAt path (element.check value) (checkSuite document) := by
  -- A holder's notes are a piece of the document's, and those of what it holds a piece of that.
  induction hplace generalizing value with
  | root =>
      obtain rfl := Option.some.inj hvalue
      exact Findings.notesAt_root _
  | @item whole element name path hholds hplace i ih =>
      have hsegments : ((path.key name).index i).segments
          = path.segments ++ [.key name, .index i] := by
        simp [FieldPath.key, FieldPath.index]
      have hself := Value.sameBut_self_iff.mpr hvalue
      rw [hsegments] at hself
      obtain ⟨holder, holder', houter, hinner⟩ := hself.split
      obtain ⟨entries, entries', hmap, -, hsame⟩ := sameButItem_of_sameBut hinner
      obtain ⟨before, after, rfl, hitems, -⟩ := hsame.items
      have hpath : (path.key name).index before.length =
          path.under ((FieldPath.root.key name).index before.length) := by
        rw [FieldPath.under_index, FieldPath.under_key, FieldPath.under_root]
      rw [hpath]
      exact (ih houter.at?_eq).trans (hholds.notesAt hmap hitems (by simp))

/-! ### The keys of an element -/

namespace Findings

variable {found other : Findings} {n : Nat}

/-- All that is noted lies deeper than so many steps. -/
def DeeperThan (n : Nat) (found : Findings) : Prop :=
  ∀ place ∈ found.unknown, n < place.segments.length

theorem deeperThan_none : Findings.none.DeeperThan n :=
  List.forall_mem_nil _

theorem DeeperThan.append (h : found.DeeperThan n) (h' : other.DeeperThan n) :
    (found ++ other).DeeperThan n :=
  List.forall_mem_append.mpr ⟨h, h'⟩

theorem DeeperThan.under (h : found.DeeperThan n) (segment : Segment) :
    (found.under ⟨[segment]⟩).DeeperThan (n + 1) := by
  intro place hplace
  obtain ⟨inner, hinner, rfl⟩ := List.mem_map.mp hplace
  have hdeep := h inner hinner
  simp only [FieldPath.under, List.length_append, List.length_singleton]
  omega

theorem deeperThan_ofItems (check : Value → Findings) (items : List Value) :
    (ofItems check items).DeeperThan 0 := by
  intro place hplace
  rw [ofItems, unknown_join] at hplace
  obtain ⟨part, hpart, hplace⟩ := List.mem_flatMap.mp hplace
  obtain ⟨i, hi, rfl⟩ := List.mem_mapIdx.mp hpart
  obtain ⟨inner, -, rfl⟩ := List.mem_map.mp hplace
  simp only [FieldPath.under, FieldPath.index, List.length_append, List.length_singleton]
  omega

theorem DeeperThan.count_eq_zero (h : found.DeeperThan 1) (text : String) :
    found.unknown.count (FieldPath.root.key text) = 0 := by
  rw [List.count_eq_zero]
  intro hmem
  exact Nat.lt_irrefl 1 (h _ hmem)

end Findings

open Findings (DeeperThan)

theorem deeperThan_unknownKeys (known : List String) (entries : Entries) :
    (unknownKeys known entries).DeeperThan 0 := by
  intro place hplace
  obtain ⟨text, -, rfl⟩ := List.mem_map.mp hplace
  simp [FieldPath.key]

theorem deeperThan_checkSequence (value : Value) (check : Value → Findings) :
    (checkSequence value check).DeeperThan 0 := by
  unfold checkSequence
  split
  · exact Findings.deeperThan_ofItems _ _
  · exact List.forall_mem_nil _

theorem deeperThan_checkSomeItems (name : String) (check : Value → Findings) (entries : Entries) :
    (checkSomeItems name check entries).DeeperThan 1 := by
  refine DeeperThan.under ?_ (.key name)
  split
  · exact List.forall_mem_nil _
  · split
    · exact List.forall_mem_nil _
    · exact deeperThan_checkSequence _ _

theorem deeperThan_checkAnyItems (name : String) (check : Value → Findings) (entries : Entries) :
    (checkAnyItems name check entries).DeeperThan 1 := by
  refine DeeperThan.under ?_ (.key name)
  split
  · exact Findings.deeperThan_none
  · exact deeperThan_checkSequence _ _

theorem deeperThan_checkConfig (plugin : Except Defect Plugin) (entries : Entries) :
    (checkConfig plugin entries).DeeperThan 1 := by
  refine DeeperThan.under ?_ (.key "config")
  split
  · exact List.forall_mem_nil _
  · unfold checkMapping
    split
    · have hkeys (settings : Entries) : (checkKeys settings).DeeperThan 0 := List.forall_mem_nil _
      refine (hkeys _).append ?_
      split
      · have hfields (rules : List FieldRule) (settings : Entries) :
            (checkFields rules settings).DeeperThan 0 := by
          intro place hplace
          rw [unknown_checkFields] at hplace
          cases hplace
        exact (hfields _ _).append (deeperThan_unknownKeys _ _)
      · exact Findings.deeperThan_none
    · exact List.forall_mem_nil _

theorem count_unknownKeys (known : List String) (entries : Entries) (text : String) :
    (unknownKeys known entries).unknown.count (FieldPath.root.key text) =
      if text ∈ known then 0 else entries.countP (·.1.str? == some text) := by
  have hinjective : Function.Injective FieldPath.root.key :=
    fun _ _ h => (FieldPath.key_eq_key_iff.mp h).2
  rw [unknownKeys, List.count_map_of_injective _ _ hinjective]
  split
  case isTrue hknown =>
    rw [List.count_eq_zero]
    intro hmem
    simp [hknown] at hmem
  case isFalse hunknown => rw [List.count_filter (by simp [hunknown]), List.count_filterMap]

/-- The keys that an element of a kind knows, some of which may be ignored all the same. -/
inductive Element.Knows : Element → Entries → List String → Prop
  | suite (entries : Entries) : Knows .suite entries suiteKeys
  | test (entries : Entries) : Knows .test entries testKeys
  | step (entries : Entries) : Knows .step entries stepKeys
  | assertion {entries : Entries} {kind : AssertionKind} (hkind : entries.HasText "type" kind.name) :
      Knows .assertion entries (assertionKeys kind)
  | capture (entries : Entries) : Knows .capture entries captureKeys

theorem Element.Knows.count_eq {known : List String} (h : element.Knows entries known)
    (hmap : value.map? = some entries) (text : String) :
    (element.check value).unknown.count (FieldPath.root.key text) =
      if text ∈ known then 0 else entries.countP (·.1.str? == some text) := by
  rw [← count_unknownKeys]
  have hsome (name : String) (check : Value → Findings) :=
    (deeperThan_checkSomeItems name check entries).count_eq_zero text
  have hany (name : String) (check : Value → Findings) :=
    (deeperThan_checkAnyItems name check entries).count_eq_zero text
  have hconfig (plugin : Except Defect Plugin) :=
    (deeperThan_checkConfig plugin entries).count_eq_zero text
  cases h with
  | suite =>
      simp [check, checkSuite, checkMapping, hmap, Findings.unknown_append, unknown_checkField, hsome]
  | test =>
      simp [check, checkTest, checkMapping, hmap, Findings.unknown_append, unknown_checkField, hsome]
  | step =>
      simp [check, checkStep, checkMapping, hmap, Findings.unknown_append, unknown_checkField,
        unknown_checkPlugin, hconfig, hany]
  | assertion hkind =>
      simp [check, checkAssertion, checkMapping, hmap, chosenAssertion_eq_ok_iff.mpr hkind,
        Findings.unknown_append, unknown_checkFields]
  | capture =>
      simp [check, checkCapture, checkMapping, hmap, Findings.unknown_append, unknown_checkFields]

/-! ### Whole documents -/

/-- A key of the mapping at the path is noted as unknown. -/
def Noted (document : Value) (path : FieldPath) (key : Value) : Prop :=
  ∃ text, key.str? = some text ∧ path.key text ∈ unknownFields document

theorem count_unknownFields {known : List String} (hplace : Place element path)
    (hentries : document.mappingAt? path = some entries) (hknown : element.Knows entries known)
    (text : String) :
    (unknownFields document).count (path.key text) =
      if text ∈ known then 0 else entries.countP (·.1.str? == some text) := by
  obtain ⟨value, hvalue, hmap⟩ := Option.bind_eq_some_iff.mp hentries
  have hkey : path.key text = path.under (FieldPath.root.key text) := by
    rw [FieldPath.under_key, FieldPath.under_root]
  have hinjective : Function.Injective path.under := by
    intro first second h
    cases first
    cases second
    simpa [FieldPath.under] using h
  calc (unknownFields document).count (path.key text)
      = ((unknownFields document).filter (·.startsWith path)).count (path.key text) := by
        rw [List.count_filter (by rw [hkey, FieldPath.startsWith_under])]
    _ = ((element.check value).unknown.map path.under).count (path.key text) :=
        congrArg (List.count _) (hplace.notesAt hvalue)
    _ = (element.check value).unknown.count (FieldPath.root.key text) := by
        rw [hkey, List.count_map_of_injective _ _ hinjective]
    _ = if text ∈ known then 0 else entries.countP (·.1.str? == some text) :=
        hknown.count_eq hmap text

theorem Place.clean (hplace : Place element path) (haccepted : validate document = .ok ())
    (hvalue : document.at? path = some value) : (element.check value).Clean := by
  have hclean : (checkSuite document).defects = [] := validate_eq_ok_iff_clean.mp haccepted
  obtain ⟨before, after, hpieces, -⟩ := hplace.spliced (Value.sameBut_self_iff.mpr hvalue)
  rw [hclean, Findings.defects_append, Findings.defects_append] at hpieces
  have hpiece : ((element.check value).under path).Clean :=
    (List.append_eq_nil_iff.mp (List.append_eq_nil_iff.mp hpieces.symm).1).2
  exact Findings.clean_under_iff.mp hpiece

theorem Place.ne_root (hplace : Place element path) (helement : element ≠ .suite) :
    path ≠ .root := by
  cases hplace with
  | root => exact absurd rfl helement
  | item _ _ i => exact (FieldPath.root_ne_index _ i).symm

theorem Place.exists_knows (hplace : Place element path) (haccepted : validate document = .ok ())
    (hentries : document.mappingAt? path = some entries) :
    ∃ names known, Lists document path names ∧ element.Knows entries known
      ∧ ∀ text, text ∈ known ↔ text ∈ names ∨ path = .root ∧ text = "version" := by
  have hfurther {known : List String} (helement : element ≠ .suite) (text : String) :
      text ∈ known ↔ text ∈ known ∨ path = .root ∧ text = "version" := by
    simp [hplace.ne_root helement]
  cases element with
  | suite =>
      refine ⟨_, _, .suite hplace, .suite entries, fun text => ?_⟩
      cases hplace with
      | root => simp [suiteKeys, or_assoc]
      | item hholds => cases hholds
  | test => exact ⟨_, _, .test hplace, .test entries, hfurther (by simp)⟩
  | step => exact ⟨_, _, .step hplace, .step entries, hfurther (by simp)⟩
  | assertion =>
      obtain ⟨value, hvalue, hmap⟩ := Option.bind_eq_some_iff.mp hentries
      obtain ⟨entries', hmap', kind, hkind, -⟩ :=
        clean_checkAssertion_iff.mp (hplace.clean haccepted hvalue)
      obtain rfl := Option.some.inj (hmap'.symm.trans hmap)
      exact ⟨_, _, .assertion hplace hentries hkind, .assertion hkind, hfurther (by simp)⟩
  | capture => exact ⟨_, _, .capture hplace, .capture entries, hfurther (by simp)⟩

/-- In an accepted document a key is noted if it is a string, seen through tags, that is no field
there, and only then; the version of a suite is never noted. Each entry has a note of its own. -/
theorem noted_iff (haccepted : validate document = .ok ()) (hplace : Place element path)
    (hentries : document.mappingAt? path = some entries) :
    ∃ names, Lists document path names
      ∧ (∀ entry ∈ entries, Noted document path entry.1 ↔
          ∃ text, entry.1.str? = some text ∧ text ∉ names ∧ ¬ (path = .root ∧ text = "version"))
      ∧ ∀ text, text ∉ names → ¬ (path = .root ∧ text = "version") →
          (unknownFields document).count (path.key text) =
            entries.countP (·.1.str? == some text) := by
  obtain ⟨names, known, hlists, hknows, hknown⟩ := hplace.exists_knows haccepted hentries
  have hcount (text : String) := count_unknownFields hplace hentries hknows text
  refine ⟨names, hlists, ?_, ?_⟩
  · intro entry hentry
    refine exists_congr fun text => and_congr_right fun htext => ?_
    rw [← not_or, ← hknown, ← List.count_pos_iff, hcount]
    split
    case isTrue htextKnown => simp [htextKnown]
    case isFalse hunknown =>
      simp only [hunknown, not_false_eq_true, iff_true, List.countP_pos_iff]
      exact ⟨entry, hentry, by simp [htext]⟩
  · intro text hname hversion
    rw [hcount, if_neg]
    rw [hknown]
    exact not_or.mpr ⟨hname, hversion⟩

/-- A suite with a tagged key that spells a field, a key that is no string, and two that are noted. -/
def tagged : Value :=
  .map [
    (.str "name", .str "s"),
    (.str "tests", .seq [.map [
      (.str "name", .str "t"),
      (.str "steps", .seq [.map [
        (.str "name", .str "p"),
        (.str "plugin", .str "delay"),
        (.str "config", .map [(.str "duration", .str "1s")])]])]]),
    (.tagged "k" (.str "description"), .str "d"),
    (.int 7, .null),
    (.str "more", .null),
    (.tagged "k" (.str "more"), .null)]

theorem validate_tagged : validate tagged = .ok () := by
  decide +kernel

theorem noted_iff_tagged : ∃ names entries, tagged.mappingAt? .root = some entries
    ∧ Lists tagged .root names
    ∧ (∀ entry ∈ entries, Noted tagged .root entry.1 ↔
        ∃ text, entry.1.str? = some text ∧ text ∉ names ∧ text ≠ "version")
    ∧ (unknownFields tagged).count (FieldPath.root.key "more") = 2 := by
  have hentries : ∃ entries, tagged.mappingAt? .root = some entries := ⟨_, rfl⟩
  obtain ⟨entries, hentries⟩ := hentries
  obtain ⟨names, hlists, hnoted, -⟩ := noted_iff validate_tagged .root hentries
  refine ⟨names, entries, hentries, hlists, ?_, by decide +kernel⟩
  simpa using hnoted

/-- The tagged key is not looked up, and it is not noted either. -/
theorem not_noted_tagged :
    ¬ ∀ (document : Value) (element : Element) (path : FieldPath) (entries : Entries)
        (names : List String) (entry : Value × Value),
      validate document = .ok () → Place element path →
      document.mappingAt? path = some entries → Lists document path names → entry ∈ entries →
      (∀ name ∈ names, entry.1 ≠ .str name) → ¬ (path = .root ∧ entry.1 = .str "version") →
      Noted document path entry.1 := by
  intro h
  have hnoted := h tagged .suite .root _ _ (.tagged "k" (.str "description"), .str "d")
    validate_tagged .root rfl (.suite .root) (by simp) (by simp) (by simp)
  obtain ⟨text, htext, hmem⟩ := hnoted
  obtain rfl : "description" = text := Option.some.inj htext
  have hnone : FieldPath.root.key "description" ∉ unknownFields tagged := by decide +kernel
  exact hnone hmem

end ApiSuite.Schema
