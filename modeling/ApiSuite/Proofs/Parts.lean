import ApiSuite.Proofs.Places

/-!
# The parts of a value

A value is met on the way through a document if items of sequences, values of mappings and contents
of tags lead there; keys do not lead anywhere.
-/

namespace ApiSuite.Value

variable {seen : Entries → Entries} {property : Entries → Prop} {entries : Entries}
  {items : List Value} {value inner further : Value} {tag : String}

/-- Whether a value is met on the way through another one. A mapping leads where the entries that are
`seen` in it lead. -/
inductive Reaches (seen : Entries → Entries) : Value → Value → Prop
  | here (value : Value) : Reaches seen value value
  | item {items : List Value} {item value : Value} (hitem : item ∈ items)
      (h : Reaches seen item value) : Reaches seen (.seq items) value
  | field {entries : Entries} {entry : Value × Value} {value : Value} (hentry : entry ∈ seen entries)
      (h : Reaches seen entry.2 value) : Reaches seen (.map entries) value
  | content {tag : String} {content value : Value} (h : Reaches seen content value) :
      Reaches seen (.tagged tag content) value

/-- Whether every mapping that is met in the value has a property. -/
def EachMapping (seen : Entries → Entries) (property : Entries → Prop) (value : Value) : Prop :=
  ∀ entries, value.Reaches seen (.map entries) → property entries

theorem Reaches.trans (h : value.Reaches seen inner) (h' : inner.Reaches seen further) :
    value.Reaches seen further := by
  induction h with
  | here => exact h'
  | item hitem _ ih => exact .item hitem (ih h')
  | field hentry _ ih => exact .field hentry (ih h')
  | content _ ih => exact .content (ih h')

theorem EachMapping.of_reaches (h : value.EachMapping seen property)
    (hreaches : value.Reaches seen inner) : inner.EachMapping seen property :=
  fun entries hentries => h entries (hreaches.trans hentries)

theorem eachMapping_seq_iff :
    (Value.seq items).EachMapping seen property ↔
      ∀ item ∈ items, item.EachMapping seen property := by
  constructor
  · exact fun h item hitem entries hentries => h entries (.item hitem hentries)
  · intro h entries hentries
    cases hentries with
    | item hitem hentries => exact h _ hitem entries hentries

theorem eachMapping_map_iff :
    (Value.map entries).EachMapping seen property ↔
      property entries ∧ ∀ entry ∈ seen entries, entry.2.EachMapping seen property := by
  constructor
  · exact fun h => ⟨h entries (.here _),
      fun entry hentry entries' hentries' => h entries' (.field hentry hentries')⟩
  · rintro ⟨hhere, hfields⟩ entries' hentries'
    cases hentries' with
    | here => exact hhere
    | field hentry hentries' => exact hfields _ hentry entries' hentries'

theorem eachMapping_tagged_iff :
    (Value.tagged tag value).EachMapping seen property ↔ value.EachMapping seen property := by
  constructor
  · exact fun h entries hentries => h entries (.content hentries)
  · intro h entries hentries
    cases hentries with
    | content hentries => exact h entries hentries

/-! ### Places -/

theorem reaches_untag (value : Value) : value.Reaches id value.untag := by
  fun_induction untag value with
  | case1 tag content ih => exact .content ih
  | case2 value _ => exact .here value

theorem reaches_of_child? {segment : Segment} (h : value.child? segment = some inner) :
    value.Reaches id inner := by
  cases segment with
  | key name =>
      obtain ⟨entries, hmap, hget⟩ := Option.bind_eq_some_iff.mp h
      obtain ⟨before, after, -, rfl⟩ := Entries.exists_split_of_get? hget
      have huntag := reaches_untag value
      rw [untag_eq_of_map? hmap] at huntag
      exact huntag.trans (.field (List.mem_append_right before List.mem_cons_self) (.here inner))
  | index i =>
      obtain ⟨items, hseq, hitem⟩ := Option.bind_eq_some_iff.mp h
      have huntag := reaches_untag value
      rw [untag_eq_of_seq? hseq] at huntag
      exact huntag.trans (.item (List.mem_of_getElem? hitem) (.here inner))

theorem reaches_of_at? {path : FieldPath} (h : value.at? path = some inner) :
    value.Reaches id inner := by
  obtain ⟨segments⟩ := path
  induction segments generalizing value with
  | nil =>
      obtain rfl := Option.some.inj h
      exact .here value
  | cons segment segments ih =>
      rw [at?, List.foldlM_cons] at h
      obtain ⟨next, hnext, hrest⟩ := Option.bind_eq_some_iff.mp h
      exact (reaches_of_child? hnext).trans (ih hrest)

theorem reaches_of_mappingAt? {path : FieldPath} (h : value.mappingAt? path = some entries) :
    value.Reaches id (.map entries) := by
  obtain ⟨inner, hinner, hmap⟩ := Option.bind_eq_some_iff.mp h
  have huntag := reaches_untag inner
  rw [untag_eq_of_map? hmap] at huntag
  exact (reaches_of_at? hinner).trans huntag

/-! ### Sizes -/

theorem sizeOf_lt_seq {item : Value} (h : item ∈ items) : sizeOf item < sizeOf (seq items) := by
  have hsize := List.sizeOf_lt_of_mem h
  simp only [seq.sizeOf_spec]
  omega

theorem sizeOf_lt_map {entry : Value × Value} (h : entry ∈ entries) :
    sizeOf entry.2 < sizeOf (map entries) := by
  have hsize : sizeOf entry < sizeOf entries := List.sizeOf_lt_of_mem h
  obtain ⟨key, value⟩ := entry
  simp only [Prod.mk.sizeOf_spec, map.sizeOf_spec] at hsize ⊢
  omega

theorem sizeOf_lt_tagged (tag : String) (content : Value) :
    sizeOf content < sizeOf (tagged tag content) := by
  simp only [tagged.sizeOf_spec]
  omega

theorem sizeOf_le_of_reaches (h : value.Reaches id inner) : sizeOf inner ≤ sizeOf value := by
  induction h with
  | here => exact Nat.le_refl _
  | item hitem _ ih => exact Nat.le_trans ih (Nat.le_of_lt (sizeOf_lt_seq hitem))
  | field hentry _ ih => exact Nat.le_trans ih (Nat.le_of_lt (sizeOf_lt_map hentry))
  | content _ ih => exact Nat.le_trans ih (Nat.le_of_lt (sizeOf_lt_tagged _ _))

end ApiSuite.Value
