import ApiSuite.FieldPath
import ApiSuite.Value
import Mathlib.Data.List.Basic

/-!
# Places in documents

How paths are put together, what lies at a path, and which documents differ at a path only. A path
is followed from the outside in: keys are looked up as untagged strings, indexes count the items of
sequences, and mappings and sequences are seen through tags.
-/

namespace ApiSuite

namespace FieldPath

variable {path base : FieldPath}

theorem under_root (base : FieldPath) : base.under .root = base := by
  simp [under, root]

theorem root_under (path : FieldPath) : FieldPath.root.under path = path := rfl

theorem under_assoc (outer base path : FieldPath) :
    (outer.under base).under path = outer.under (base.under path) := by
  simp [under]

theorem under_key (base path : FieldPath) (name : String) :
    base.under (path.key name) = (base.under path).key name := by
  simp [under, key]

theorem under_index (base path : FieldPath) (i : Nat) :
    base.under (path.index i) = (base.under path).index i := by
  simp [under, index]

theorem key_eq_key_iff {path path' : FieldPath} {name name' : String} :
    path.key name = path'.key name' ↔ path = path' ∧ name = name' := by
  cases path
  cases path'
  simp [key]

theorem index_eq_index_iff {path path' : FieldPath} {i i' : Nat} :
    path.index i = path'.index i' ↔ path = path' ∧ i = i' := by
  cases path
  cases path'
  simp [index]

theorem key_ne_index (path path' : FieldPath) (name : String) (i : Nat) :
    path.key name ≠ path'.index i := by
  intro h
  simpa [key, index] using congrArg (fun path => path.segments.getLast?) h

theorem root_ne_key (path : FieldPath) (name : String) : root ≠ path.key name := by
  simp [root, key]

theorem root_ne_index (path : FieldPath) (i : Nat) : root ≠ path.index i := by
  simp [root, index]

/-- Whether the path leads to `base` or further down from there. -/
def startsWith (path base : FieldPath) : Bool :=
  base.segments.isPrefixOf path.segments

theorem startsWith_iff : path.startsWith base = true ↔ ∃ rest, path = base.under rest := by
  rw [startsWith, List.isPrefixOf_iff_prefix]
  constructor
  · rintro ⟨rest, hrest⟩
    exact ⟨⟨rest⟩, by rw [under, hrest]⟩
  · rintro ⟨rest, rfl⟩
    exact ⟨rest.segments, rfl⟩

theorem startsWith_under (base path : FieldPath) : (base.under path).startsWith base = true :=
  startsWith_iff.mpr ⟨path, rfl⟩

theorem under_startsWith_under (outer : FieldPath) :
    (outer.under path).startsWith (outer.under base) = path.startsWith base := by
  simp only [startsWith, under]
  rw [Bool.eq_iff_iff, List.isPrefixOf_iff_prefix, List.isPrefixOf_iff_prefix,
    List.prefix_append_right_inj]

theorem startsWith_eq_false_of_ne {first first' : Segment} (hne : first ≠ first')
    (rest rest' : List Segment) :
    startsWith ⟨first :: rest⟩ ⟨first' :: rest'⟩ = false := by
  have hsegment : (first' == first) = false := by simpa using hne.symm
  simp [startsWith, List.isPrefixOf, hsegment]

theorem startsWith_under_eq_false (h : path.startsWith base = false) (rest : FieldPath) :
    path.startsWith (base.under rest) = false := by
  rw [Bool.eq_false_iff] at h ⊢
  intro hrest
  obtain ⟨further, rfl⟩ := startsWith_iff.mp hrest
  rw [under_assoc] at h
  exact h (startsWith_under _ _)

theorem ne_of_startsWith_eq_false (h : path.startsWith base = false) : path ≠ base := by
  rintro rfl
  have hself := startsWith_under path .root
  rw [under_root, h] at hself
  cases hself

theorem under_key_ne (path : FieldPath) (name : String) (rest : FieldPath) :
    path.under ((root.key name).under rest) ≠ path := by
  intro h
  have hlength := congrArg (fun path => path.segments.length) h
  simp [under, key, root] at hlength

end FieldPath

theorem exists_split_of_getElem? {α : Type} {items : List α} {i : Nat} {item : α}
    (h : items[i]? = some item) :
    ∃ before after, items = before ++ item :: after ∧ before.length = i := by
  obtain ⟨hi, rfl⟩ := List.getElem?_eq_some_iff.mp h
  refine ⟨items.take i, items.drop (i + 1), ?_, ?_⟩
  · rw [← List.drop_eq_getElem_cons hi, List.take_append_drop]
  · rw [List.length_take, Nat.min_eq_left (Nat.le_of_lt hi)]

theorem Value.isKey_eq_true_iff {name : String} {key : Value} :
    key.isKey name = true ↔ key = .str name := by
  cases key <;> simp [isKey]

theorem Entries.exists_split_of_get? {entries : Entries} {name : String} {value : Value}
    (h : entries.get? name = some value) :
    ∃ before after, (∀ entry ∈ before, entry.1.isKey name = false)
      ∧ entries = before ++ (.str name, value) :: after := by
  obtain ⟨⟨key, found⟩, hfind, rfl⟩ := Option.map_eq_some_iff.mp h
  obtain ⟨hkey, before, after, hentries, hfirst⟩ := List.find?_eq_some_iff_append.mp hfind
  obtain rfl := Value.isKey_eq_true_iff.mp hkey
  exact ⟨before, after, fun entry hentry => by simpa using hfirst entry hentry, hentries⟩

theorem Entries.get?_append_cons {before after : Entries} {name : String} {value : Value}
    (hfirst : ∀ entry ∈ before, entry.1.isKey name = false) :
    Entries.get? (before ++ (.str name, value) :: after) name = some value := by
  have hnone : before.find? (fun entry => entry.1.isKey name) = none := by
    rw [List.find?_eq_none]
    intro entry hentry
    simp [hfirst entry hentry]
  have hkey : (Value.str name).isKey name = true := Value.isKey_eq_true_iff.mpr rfl
  simp [Entries.get?, List.find?_append, hnone, hkey]

theorem Entries.get?_append_cons_of_ne {before after : Entries} {name other : String}
    (hother : other ≠ name) (value value' : Value) :
    Entries.get? (before ++ (.str name, value) :: after) other
      = Entries.get? (before ++ (.str name, value') :: after) other := by
  have hkey : (Value.str name).isKey other = false := by
    simpa [Value.isKey] using hother.symm
  simp [Entries.get?, List.find?_append, hkey]

namespace Value

/-- What lies one step below a value. -/
def child? (value : Value) : Segment → Option Value
  | .key name => value.map? >>= fun entries => entries.get? name
  | .index i => value.seq? >>= fun items => items[i]?

/-- What lies at a path in a document. -/
def at? (document : Value) (path : FieldPath) : Option Value :=
  path.segments.foldlM child? document

/-- The mapping at a path in a document. -/
def mappingAt? (document : Value) (path : FieldPath) : Option Entries :=
  document.at? path >>= map?

variable {document value : Value} {path : FieldPath} {entries : Entries} {items : List Value}

theorem at?_key (path : FieldPath) (name : String) :
    document.at? (path.key name) = (document.mappingAt? path).bind (·.get? name) := by
  simp [at?, mappingAt?, FieldPath.key, child?, Option.bind_assoc]

theorem at?_index {i : Nat} (hvalue : document.at? path = some value)
    (hseq : value.seq? = some items) : document.at? (path.index i) = items[i]? := by
  rw [at?] at hvalue
  simp [at?, FieldPath.index, hvalue, child?, hseq]

theorem untag_eq_of_map? (h : value.map? = some entries) : value.untag = .map entries := by
  unfold map? at h
  split at h
  · rename_i hentries
    rw [hentries, Option.some.inj h]
  · cases h

theorem untag_eq_of_seq? (h : value.seq? = some items) : value.untag = .seq items := by
  unfold seq? at h
  split at h
  · rename_i hitems
    rw [hitems, Option.some.inj h]
  · cases h

theorem untag_eq_of_str? {s : String} (h : value.str? = some s) : value.untag = .str s := by
  unfold str? at h
  split at h
  · rename_i htext
    rw [htext, Option.some.inj h]
  · cases h

/-! ### Documents that differ at one place -/

/-- Two values that are the same but for what lies at a path, which is `a` in the one and `b` in the
other. The field that a key leads to is the first of its name. -/
inductive SameBut (a b : Value) : List Segment → Value → Value → Prop where
  | here : SameBut a b [] a b
  | tagged {first : Segment} {rest : List Segment} {v w : Value} (tag : String)
      (h : SameBut a b (first :: rest) v w) :
      SameBut a b (first :: rest) (.tagged tag v) (.tagged tag w)
  | field {rest : List Segment} {v w : Value} (before : Entries) (name : String) (after : Entries)
      (hfirst : ∀ entry ∈ before, entry.1.isKey name = false) (h : SameBut a b rest v w) :
      SameBut a b (.key name :: rest) (.map (before ++ (.str name, v) :: after))
        (.map (before ++ (.str name, w) :: after))
  | item {rest : List Segment} {v w : Value} (before after : List Value)
      (h : SameBut a b rest v w) :
      SameBut a b (.index before.length :: rest) (.seq (before ++ v :: after))
        (.seq (before ++ w :: after))

namespace SameBut

variable {a b v w : Value} {rest : List Segment}

theorem exists_entries {name : String} (h : SameBut a b (.key name :: rest) v w) :
    ∃ before after inner inner', (∀ entry ∈ before, entry.1.isKey name = false)
      ∧ v.map? = some (before ++ (.str name, inner) :: after)
      ∧ w.map? = some (before ++ (.str name, inner') :: after) ∧ SameBut a b rest inner inner' := by
  generalize hpath : Segment.key name :: rest = path at h
  induction h with
  | here => cases hpath
  | tagged tag h ih => exact ih hpath
  | field before name after hfirst h =>
      cases hpath
      exact ⟨before, after, _, _, hfirst, rfl, rfl, h⟩
  | item => cases hpath

theorem exists_items {i : Nat} (h : SameBut a b (.index i :: rest) v w) :
    ∃ before after inner inner', before.length = i
      ∧ v.seq? = some (before ++ inner :: after)
      ∧ w.seq? = some (before ++ inner' :: after) ∧ SameBut a b rest inner inner' := by
  generalize hpath : Segment.index i :: rest = path at h
  induction h with
  | here => cases hpath
  | tagged tag h ih => exact ih hpath
  | field => cases hpath
  | item before after h =>
      cases hpath
      exact ⟨before, after, _, _, rfl, rfl, rfl, h⟩

theorem eq_of_nil (h : SameBut a b [] v w) : v = a ∧ w = b := by
  cases h
  exact ⟨rfl, rfl⟩

theorem split : ∀ {path : List Segment} {v w : Value}, SameBut a b (path ++ rest) v w →
    ∃ m m', SameBut m m' path v w ∧ SameBut a b rest m m'
  | [], v, w, h => ⟨v, w, .here, h⟩
  | first :: path, _, _, .tagged tag h => by
      obtain ⟨m, m', houter, hinner⟩ := @split (first :: path) _ _ h
      exact ⟨m, m', .tagged tag houter, hinner⟩
  | _ :: _, _, _, .field before name after hfirst h => by
      obtain ⟨m, m', houter, hinner⟩ := split h
      exact ⟨m, m', .field before name after hfirst houter, hinner⟩
  | _ :: _, _, _, .item before after h => by
      obtain ⟨m, m', houter, hinner⟩ := split h
      exact ⟨m, m', .item before after houter, hinner⟩

theorem of_untag {first : Segment} (h : SameBut a b (first :: rest) v.untag v.untag) :
    SameBut a b (first :: rest) v v := by
  fun_induction untag v with
  | case1 tag content ih => exact .tagged tag (ih h)
  | case2 v hnot => exact h

theorem at?_eq {path : List Segment} (h : SameBut a b path v w) : v.at? ⟨path⟩ = some a := by
  induction h with
  | here => rfl
  | @tagged first rest v w tag h ih =>
      have hchild : child? (.tagged tag v) first = child? v first := by
        cases first <;> rfl
      rwa [at?, List.foldlM_cons, hchild]
  | @field rest v w before name after hfirst h ih =>
      have hchild : child? (.map (before ++ (.str name, v) :: after)) (.key name) = some v :=
        Entries.get?_append_cons hfirst
      rw [at?, List.foldlM_cons, hchild]
      exact ih
  | @item rest v w before after h ih =>
      have hchild : child? (.seq (before ++ v :: after)) (.index before.length) = some v := by
        simp [child?, seq?, untag]
      rw [at?, List.foldlM_cons, hchild]
      exact ih

theorem refl_of_foldlM {document : Value} {path : List Segment}
    (h : path.foldlM child? document = some a) : SameBut a a path document document := by
  induction path generalizing document with
  | nil =>
      obtain rfl : document = a := Option.some.inj h
      exact .here
  | cons first path ih =>
      rw [List.foldlM_cons] at h
      obtain ⟨inner, hinner, hrest⟩ := Option.bind_eq_some_iff.mp h
      refine of_untag ?_
      cases first with
      | key name =>
          obtain ⟨entries, hmap, hget⟩ := Option.bind_eq_some_iff.mp hinner
          obtain ⟨before, after, hfirst, rfl⟩ := Entries.exists_split_of_get? hget
          rw [untag_eq_of_map? hmap]
          exact .field before name after hfirst (ih hrest)
      | index i =>
          obtain ⟨items, hseq, hget⟩ := Option.bind_eq_some_iff.mp hinner
          obtain ⟨before, after, rfl, rfl⟩ := exists_split_of_getElem? hget
          rw [untag_eq_of_seq? hseq]
          exact .item before after (ih hrest)

end SameBut

theorem sameBut_self_iff : SameBut value value path.segments document document ↔
    document.at? path = some value :=
  ⟨SameBut.at?_eq, SameBut.refl_of_foldlM⟩

end Value

end ApiSuite
