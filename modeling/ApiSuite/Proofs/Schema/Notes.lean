import ApiSuite.Notice
import ApiSuite.Proofs.Schema.Ignored

/-!
# All that is noted, in order

A check passes the mappings of a document from the outside in and from the first to the last, the
settings of a step before its assertions and these before its captures. In each it notes the keys that
it does not know there. So the notes of a whole document are those of the mappings that it passes, put
one after another.
-/

namespace ApiSuite.Schema

variable {document value : Value} {path : FieldPath} {entries : Entries}

/-- A mapping that is looked through, and the keys that are known in it. -/
structure Visit where
  path : FieldPath
  known : List String

/-- The places of the items that a field of the mapping at a path holds. -/
def itemPaths (document : Value) (path : FieldPath) (name : String) : List FieldPath :=
  let items := (document.at? (path.key name) >>= Value.seq?).getD []
  (List.range items.length).map (path.key name).index

/-- The text of a field of the mapping at a path. -/
def textAt? (document : Value) (path : FieldPath) (name : String) : Option String :=
  document.at? (path.key name) >>= Value.str?

def pluginAt? (document : Value) (path : FieldPath) : Option Plugin :=
  textAt? document path "plugin" >>= Plugin.ofName?

def kindAt? (document : Value) (path : FieldPath) : Option AssertionKind :=
  textAt? document path "type" >>= AssertionKind.ofName?

def configVisits (document : Value) (path : FieldPath) : List Visit :=
  (pluginAt? document path).toList.map fun plugin =>
    ⟨path.key "config", (configRules plugin).map (·.name)⟩

def assertionVisits (document : Value) (path : FieldPath) : List Visit :=
  (kindAt? document path).toList.map fun kind =>
    ⟨path, "type" :: (assertionRules kind).map (·.name)⟩

def captureVisits (path : FieldPath) : List Visit :=
  [⟨path, ["json_path", "as"]⟩]

def stepVisits (document : Value) (path : FieldPath) : List Visit :=
  ⟨path, ["name", "plugin", "config", "assertions", "save"]⟩ :: configVisits document path ++
    (itemPaths document path "assertions").flatMap (assertionVisits document) ++
    (itemPaths document path "save").flatMap captureVisits

def testVisits (document : Value) (path : FieldPath) : List Visit :=
  ⟨path, ["name", "description", "steps"]⟩ ::
    (itemPaths document path "steps").flatMap (stepVisits document)

/-- The mappings of a document in the order in which they are looked through. -/
def visits (document : Value) : List Visit :=
  ⟨.root, ["name", "description", "tests", "version"]⟩ ::
    (itemPaths document .root "tests").flatMap (testVisits document)

/-- The places of the keys that are strings, seen through tags, but not known. -/
def Visit.notes (document : Value) (visit : Visit) : List FieldPath :=
  let keys := ((document.mappingAt? visit.path).getD []).filterMap fun entry => entry.1.str?
  (keys.filter fun key => key ∉ visit.known).map visit.path.key

/-! ### From parts to places -/

/-- What is noted in a value at a path is what is noted at these visits. -/
def NotedAt (document : Value) (path : FieldPath) (found : Findings) (visited : List Visit) : Prop :=
  found.unknown.map path.under = visited.flatMap (·.notes document)

variable {found other : Findings} {visited visited' : List Visit} {known : List String}
  {name : String} {check : Value → Findings} {visitsOf : FieldPath → List Visit}

theorem notedAt_nil (h : found.unknown = []) : NotedAt document path found [] := by
  rw [NotedAt, h]
  rfl

theorem NotedAt.append (h : NotedAt document path found visited)
    (h' : NotedAt document path other visited') :
    NotedAt document path (found ++ other) (visited ++ visited') := by
  rw [NotedAt, Findings.unknown_append, List.map_append, List.flatMap_append, h, h']

theorem NotedAt.append_silent (h : NotedAt document path found visited) (hother : other.unknown = []) :
    NotedAt document path (other ++ found) visited :=
  (notedAt_nil hother).append h

theorem notedAt_unknownKeys (known : List String) (hentries : document.mappingAt? path = some entries) :
    NotedAt document path (unknownKeys known entries) [⟨path, known⟩] := by
  have hunder : path.under ∘ FieldPath.root.key = path.key := by
    funext name
    rw [Function.comp_apply, FieldPath.under_key, FieldPath.under_root]
  rw [NotedAt, unknownKeys, List.map_map, hunder, List.flatMap_singleton, Visit.notes, hentries]
  simp

theorem NotedAt.under {inner : FieldPath} (h : NotedAt document (path.under inner) found visited) :
    NotedAt document path (found.under inner) visited := by
  have hunder : path.under ∘ inner.under = (path.under inner).under := by
    funext place
    exact (FieldPath.under_assoc path inner place).symm
  rw [NotedAt, Findings.under, List.map_map, hunder]
  exact h

theorem NotedAt.atKey (h : NotedAt document (path.key name) found visited) :
    NotedAt document path (found.atKey name) visited := by
  apply NotedAt.under
  rwa [FieldPath.under_key, FieldPath.under_root]

theorem notedAt_ofItems {items : List Value} (hseq : (document.at? path >>= Value.seq?) = some items)
    (hcheck : ∀ path value, document.at? path = some value →
      NotedAt document path (check value) (visitsOf path)) :
    NotedAt document path (Findings.ofItems check items)
      (((List.range items.length).map path.index).flatMap visitsOf) := by
  obtain ⟨value, hvalue, hseq⟩ := Option.bind_eq_some_iff.mp hseq
  rw [NotedAt, Findings.ofItems, Findings.unknown_join, List.flatMap_def, List.map_flatten,
    List.flatMap_assoc, List.flatMap_def]
  congr 1
  apply List.ext_getElem
  · simp
  · intro i hi hi'
    have hlength : i < items.length := by simpa using hi
    have hitem : NotedAt document (path.under (FieldPath.root.index i)) (check items[i])
        (visitsOf (path.index i)) := by
      rw [FieldPath.under_index, FieldPath.under_root]
      apply hcheck
      rw [Value.at?_index hvalue hseq, List.getElem?_eq_getElem hlength]
    simp only [List.getElem_map, List.getElem_mapIdx, List.getElem_range]
    exact hitem.under

/-! ### Fields and what lies at their keys -/

section Fields

variable {α : Type} {view : Value → Option α}

theorem untag_eq_null_of_isNull (h : value.isNull = true) : value.untag = .null := by
  unfold Value.isNull at h
  split at h
  case h_1 hnull => exact hnull
  case h_2 => cases h

/-- A null is as good as no value where it would not count as a value anyway. -/
theorem at?_key_bind (hentries : document.mappingAt? path = some entries)
    (hview : ∀ value, value.untag = .null → view value = none) :
    (document.at? (path.key name) >>= view) = (entries.field? name >>= view) := by
  rw [Value.at?_key, hentries, Option.bind_some, Entries.field?]
  cases entries.get? name with
  | none => rfl
  | some value =>
      by_cases hnull : value.isNull = true
      · simp [Option.filter, hnull, hview value (untag_eq_null_of_isNull hnull)]
      · simp [Option.filter, hnull]

theorem textAt?_eq (hentries : document.mappingAt? path = some entries) :
    textAt? document path name = (entries.field? name >>= Value.str?) := by
  apply at?_key_bind hentries
  intro value hnull
  rw [Value.str?, hnull]

theorem seqAt?_eq (hentries : document.mappingAt? path = some entries) :
    (document.at? (path.key name) >>= Value.seq?) = (entries.field? name >>= Value.seq?) := by
  apply at?_key_bind hentries
  intro value hnull
  rw [Value.seq?, hnull]

theorem mappingAt?_key_eq (hentries : document.mappingAt? path = some entries) :
    document.mappingAt? (path.key name) = (entries.field? name >>= Value.map?) := by
  apply at?_key_bind hentries
  intro value hnull
  rw [Value.map?, hnull]

theorem bind_ofName?_eq_toOption {ofName? : String → Option α} {unknown : String → Defect} :
    (entries.field? name >>= Value.str? >>= ofName?) =
      (choice name ofName? unknown entries).toOption := by
  unfold choice
  cases entries.field? name with
  | none => rfl
  | some value =>
      unfold needText
      cases htext : value.str? with
      | none => simp [htext, bind, Except.bind, Except.toOption]
      | some text => cases hname : ofName? text <;> simp [htext, hname, bind, Except.bind, Except.toOption]

theorem pluginAt?_eq (hentries : document.mappingAt? path = some entries) :
    pluginAt? document path = (chosenPlugin entries).toOption := by
  rw [pluginAt?, textAt?_eq hentries]
  exact bind_ofName?_eq_toOption

theorem kindAt?_eq (hentries : document.mappingAt? path = some entries) :
    kindAt? document path = (chosenAssertion entries).toOption := by
  rw [kindAt?, textAt?_eq hentries]
  exact bind_ofName?_eq_toOption

end Fields

/-! ### Elements -/

theorem at?_key_eq_none (hnone : document.mappingAt? path = none) (name : String) :
    document.at? (path.key name) = none := by
  rw [Value.at?_key, hnone]
  rfl

theorem notes_eq_nil (hnone : document.mappingAt? path = none) (known : List String) :
    Visit.notes document ⟨path, known⟩ = [] := by
  simp [Visit.notes, hnone]

theorem notedAt_checkMapping {check : Entries → Findings} (hvalue : document.at? path = some value)
    (h : ∀ entries, document.mappingAt? path = some entries →
      NotedAt document path (check entries) visited)
    (hnone : document.mappingAt? path = none → visited.flatMap (·.notes document) = []) :
    NotedAt document path (checkMapping value check) visited := by
  have hmap : document.mappingAt? path = value.map? := by
    rw [Value.mappingAt?, hvalue]
    rfl
  unfold checkMapping
  cases hentries : value.map? with
  | none =>
      rw [NotedAt, hnone (hmap.trans hentries)]
      rfl
  | some entries => exact h entries (hmap.trans hentries)

theorem unknown_checkAnyItems_of_seq?_eq_none (h : (entries.field? name >>= Value.seq?) = none) :
    (checkAnyItems name check entries).unknown = [] := by
  unfold checkAnyItems
  cases hfield : entries.field? name with
  | none => rfl
  | some value =>
      have hseq : value.seq? = none := by simpa [hfield] using h
      simp only [checkSequence, hseq]
      rfl

theorem unknown_checkSomeItems (name : String) (check : Value → Findings) (entries : Entries) :
    (checkSomeItems name check entries).unknown = (checkAnyItems name check entries).unknown := by
  unfold checkSomeItems checkAnyItems
  cases entries.field? name with
  | none => rfl
  | some value =>
      simp only
      split
      case h_1 hseq =>
        rw [checkSequence, hseq]
        rfl
      case h_2 => rfl

theorem notedAt_checkAnyItems (name : String) (hentries : document.mappingAt? path = some entries)
    (hcheck : ∀ path value, document.at? path = some value →
      NotedAt document path (check value) (visitsOf path)) :
    NotedAt document path (checkAnyItems name check entries)
      ((itemPaths document path name).flatMap visitsOf) := by
  rw [itemPaths, seqAt?_eq hentries]
  cases hitems : entries.field? name >>= Value.seq? with
  | none => exact notedAt_nil (unknown_checkAnyItems_of_seq?_eq_none hitems)
  | some items =>
      rw [checkAnyItems_eq hitems]
      apply NotedAt.atKey
      apply notedAt_ofItems _ hcheck
      rw [seqAt?_eq hentries, hitems]

theorem notedAt_checkSomeItems (hentries : document.mappingAt? path = some entries)
    (hcheck : ∀ path value, document.at? path = some value →
      NotedAt document path (check value) (visitsOf path)) :
    NotedAt document path (checkSomeItems name check entries)
      ((itemPaths document path name).flatMap visitsOf) := by
  rw [NotedAt, unknown_checkSomeItems]
  exact notedAt_checkAnyItems name hentries hcheck

theorem notedAt_checkConfig (hentries : document.mappingAt? path = some entries) :
    NotedAt document path (checkConfig (chosenPlugin entries) entries)
      (configVisits document path) := by
  have hnone (h : document.mappingAt? (path.key "config") = none) :
      (configVisits document path).flatMap (·.notes document) = [] := by
    simp [configVisits, List.flatMap_map, notes_eq_nil h]
  apply NotedAt.atKey
  cases hfield : entries.field? "config" with
  | none =>
      rw [NotedAt, hnone (by rw [mappingAt?_key_eq hentries, hfield]; rfl)]
      rfl
  | some value =>
      have hvalue : document.at? (path.key "config") = some value := at?_key_of_field? hentries hfield
      refine notedAt_checkMapping hvalue (fun settings hsettings => ?_) hnone
      rw [configVisits, pluginAt?_eq hentries]
      cases chosenPlugin entries with
      | error defect => exact notedAt_nil rfl
      | ok plugin =>
          apply NotedAt.append_silent _ rfl
          apply NotedAt.append_silent _ (unknown_checkFields _ _)
          exact notedAt_unknownKeys _ hsettings

theorem notedAt_checkAssertion (hvalue : document.at? path = some value) :
    NotedAt document path (checkAssertion value) (assertionVisits document path) := by
  apply notedAt_checkMapping hvalue
  · intro entries hentries
    rw [assertionVisits, kindAt?_eq hentries]
    cases chosenAssertion entries with
    | error defect => exact notedAt_nil rfl
    | ok kind =>
        apply NotedAt.append_silent _ (unknown_checkFields _ _)
        exact notedAt_unknownKeys _ hentries
  · intro hnone
    simp [assertionVisits, kindAt?, textAt?, at?_key_eq_none hnone]

theorem notedAt_checkCapture (hvalue : document.at? path = some value) :
    NotedAt document path (checkCapture value) (captureVisits path) := by
  apply notedAt_checkMapping hvalue
  · intro entries hentries
    apply NotedAt.append_silent _ (unknown_checkFields _ _)
    exact notedAt_unknownKeys _ hentries
  · intro hnone
    simp [captureVisits, notes_eq_nil hnone]

theorem notedAt_checkStep (hvalue : document.at? path = some value) :
    NotedAt document path (checkStep value) (stepVisits document path) := by
  apply notedAt_checkMapping hvalue
  · intro entries hentries
    have hkeys : NotedAt document path (checkField entries nameRule ++ unknownKeys stepKeys entries)
        [⟨path, stepKeys⟩] :=
      (notedAt_unknownKeys stepKeys hentries).append_silent (unknown_checkField entries nameRule)
    have hplugin : NotedAt document path (checkPlugin (chosenPlugin entries)) [] :=
      notedAt_nil (unknown_checkPlugin (chosenPlugin entries))
    have hassertions := notedAt_checkAnyItems "assertions" hentries
      fun path value hvalue => notedAt_checkAssertion hvalue
    have hcaptures := notedAt_checkAnyItems "save" hentries
      fun path value hvalue => notedAt_checkCapture hvalue
    exact (((hkeys.append hplugin).append (notedAt_checkConfig hentries)).append
      hassertions).append hcaptures
  · intro hnone
    simp [stepVisits, configVisits, itemPaths, pluginAt?, textAt?, at?_key_eq_none hnone,
      notes_eq_nil hnone]

theorem notedAt_checkHolder (hvalue : document.at? path = some value)
    (hcheck : ∀ path value, document.at? path = some value →
      NotedAt document path (check value) (visitsOf path)) :
    NotedAt document path
      (checkMapping value fun entries => checkField entries nameRule
        ++ checkField entries descriptionRule ++ unknownKeys known entries
        ++ checkSomeItems name check entries)
      (⟨path, known⟩ :: (itemPaths document path name).flatMap visitsOf) := by
  apply notedAt_checkMapping hvalue
  · intro entries hentries
    have hheading : (checkField entries nameRule ++ checkField entries descriptionRule).unknown = [] := by
      rw [Findings.unknown_append, unknown_checkField, unknown_checkField]
      rfl
    have hkeys := (notedAt_unknownKeys known hentries).append_silent hheading
    exact hkeys.append (notedAt_checkSomeItems hentries hcheck)
  · intro hnone
    simp [itemPaths, at?_key_eq_none hnone, notes_eq_nil hnone]

theorem notedAt_checkTest (hvalue : document.at? path = some value) :
    NotedAt document path (checkTest value) (testVisits document path) :=
  notedAt_checkHolder hvalue fun _ _ hvalue => notedAt_checkStep hvalue

/-- The notes of a document are those of all the mappings that are looked through, in their order. -/
theorem unknownFields_eq_flatMap_visits (document : Value) :
    unknownFields document = (visits document).flatMap (·.notes document) := by
  have hroot : document.at? .root = some document := rfl
  have hsuite : NotedAt document .root (checkSuite document) (visits document) :=
    notedAt_checkHolder hroot fun _ _ hvalue => notedAt_checkTest hvalue
  have hunder : FieldPath.root.under = id := rfl
  rw [NotedAt, hunder, List.map_id] at hsuite
  exact hsuite

/-! ### Accepted documents -/

theorem exists_pluginAt? (hplace : Place .step path) (haccepted : validate document = .ok ())
    (hvalue : document.at? path = some value) : ∃ plugin, pluginAt? document path = some plugin := by
  obtain ⟨entries, hmap, hstep⟩ := clean_checkStep_iff.mp (hplace.clean haccepted hvalue)
  have hentries : document.mappingAt? path = some entries := by
    rw [Value.mappingAt?, hvalue]
    exact hmap
  obtain ⟨plugin, hplugin, -⟩ := hstep.action
  refine ⟨plugin, ?_⟩
  rw [pluginAt?_eq hentries, chosenPlugin_eq_ok_iff.mpr hplugin]
  rfl

theorem exists_kindAt? (hplace : Place .assertion path) (haccepted : validate document = .ok ())
    (hvalue : document.at? path = some value) : ∃ kind, kindAt? document path = some kind := by
  obtain ⟨entries, hmap, kind, hkind, -⟩ :=
    clean_checkAssertion_iff.mp (hplace.clean haccepted hvalue)
  have hentries : document.mappingAt? path = some entries := by
    rw [Value.mappingAt?, hvalue]
    exact hmap
  refine ⟨kind, ?_⟩
  rw [kindAt?_eq hentries, chosenAssertion_eq_ok_iff.mpr hkind]
  rfl

/-- The warnings of an accepted document are the notes of its mappings in their order, no settings and
no assertion being passed over. -/
theorem warnings_exact (haccepted : validate document = .ok ()) :
    (Notice.ofCheck document).filter (fun notice => notice.level = .warn) =
        ((visits document).flatMap (·.notes document)).map .unknownField
      ∧ (∀ path value, Place .step path → document.at? path = some value →
          ∃ plugin, pluginAt? document path = some plugin)
      ∧ ∀ path value, Place .assertion path → document.at? path = some value →
          ∃ kind, kindAt? document path = some kind := by
  refine ⟨?_, fun path value hplace => exists_pluginAt? hplace haccepted,
    fun path value hplace => exists_kindAt? hplace haccepted⟩
  rw [Notice.ofCheck, List.filter_append, ← unknownFields_eq_flatMap_visits, List.filter_map]
  have hchecked : Notice.level (.checked (violations document).length) ≠ .warn := by
    simp [Notice.level]
  have hnoted : (fun notice : Notice => decide (notice.level = .warn)) ∘ Notice.unknownField =
      fun _ => true := by
    funext place
    rfl
  simp [hchecked, hnoted]

/-- A suite with fields that are ignored in each of its mappings. -/
def crowded : Value :=
  .map [
    (.str "owner", .null),
    (.str "name", .str "s"),
    (.str "version", .int 1),
    (.str "tests", .seq [.map [
      (.str "name", .str "t"),
      (.str "steps", .seq [.tagged "k" (.map [
        (.str "save", .seq [.map [
          (.str "as", .str "id"), (.str "why", .null), (.str "json_path", .str ".id")]]),
        (.str "name", .str "p"),
        (.str "plugin", .str "delay"),
        (.str "config", .map [(.tagged "k" (.str "url"), .null), (.str "duration", .str "1s")]),
        (.str "assertions", .seq [.map [
          (.str "type", .str "status_code"), (.str "path", .null), (.str "expected", .int 200)]]),
        (.str "owner", .null)])]),
      (.str "tests", .null)]])]

theorem validate_crowded : validate crowded = .ok () := by
  decide +kernel

theorem warnings_exact_crowded :
    (Notice.ofCheck crowded).filter (fun notice => notice.level = .warn) =
      let test := (FieldPath.root.key "tests").index 0
      let step := (test.key "steps").index 0
      [FieldPath.root.key "owner", test.key "tests", step.key "owner", (step.key "config").key "url",
        ((step.key "assertions").index 0).key "path",
        ((step.key "save").index 0).key "why"].map .unknownField := by
  rw [(warnings_exact validate_crowded).1]
  rfl

end ApiSuite.Schema
