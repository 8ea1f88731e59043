import ApiSuite.Text.Blank
import ApiSuite.Value
import Mathlib.Data.List.Forall2

/-!
# Values and fields of a given form

Strings, sequences, mappings and nulls are seen through tags, a field is looked up by its untagged
string key, and a null counts as no value.
-/

namespace ApiSuite

variable {α : Type}

namespace Value

def IsText (value : Value) (property : String → Prop) : Prop :=
  ∃ s, value.str? = some s ∧ property s

def IsMapping (value : Value) (form : Entries → Prop) : Prop :=
  ∃ entries, value.map? = some entries ∧ form entries

def IsSequence (value : Value) (form : Value → Prop) : Prop :=
  ∃ items, value.seq? = some items ∧ ∀ item ∈ items, form item

def IsSomeSequence (value : Value) (form : Value → Prop) : Prop :=
  ∃ items, value.seq? = some items ∧ items ≠ [] ∧ ∀ item ∈ items, form item

theorem IsText.exists_str? {property : String → Prop} (value : Value) (h : value.IsText property) :
    ∃ s, value.str? = some s := by
  obtain ⟨s, htext, -⟩ := h
  exact ⟨s, htext⟩

theorem isText_str_iff {s : String} {property : String → Prop} :
    (Value.str s).IsText property ↔ property s := by
  simp [IsText, str?, untag]

theorem IsSomeSequence.isSequence {form : Value → Prop} (value : Value)
    (h : value.IsSomeSequence form) : value.IsSequence form := by
  obtain ⟨items, hseq, -, hitems⟩ := h
  exact ⟨items, hseq, hitems⟩

theorem IsMapping.imp {value : Value} {form form' : Entries → Prop} (h : value.IsMapping form)
    (himp : ∀ entries, form entries → form' entries) : value.IsMapping form' := by
  obtain ⟨entries, hmap, hform⟩ := h
  exact ⟨entries, hmap, himp entries hform⟩

theorem IsMapping.and {value : Value} {form form' : Entries → Prop} (h : value.IsMapping form)
    (h' : value.IsMapping form') : value.IsMapping fun entries => form entries ∧ form' entries := by
  obtain ⟨entries, hmap, hform⟩ := h
  obtain ⟨entries', hmap', hform'⟩ := h'
  obtain rfl : entries = entries' := Option.some.inj (hmap.symm.trans hmap')
  exact ⟨entries, hmap, hform, hform'⟩

end Value

namespace Entries

variable {entries : Entries} {name : String}

/-- A field that is there, with a value of this form. -/
def Has (entries : Entries) (name : String) (form : Value → Prop) : Prop :=
  ∃ value, entries.field? name = some value ∧ form value

/-- A field that is absent, null or of this form. -/
def MayHave (entries : Entries) (name : String) (form : Value → Prop) : Prop :=
  ∀ value, entries.field? name = some value → form value

def HasText (entries : Entries) (name text : String) : Prop :=
  entries.Has name fun value => value.str? = some text

/-- A field whose text is this one but for blanks at its ends. -/
def HasTrimmed (entries : Entries) (name text : String) : Prop :=
  ∃ written, entries.HasText name written ∧ text = Text.trim written

/-- A field that holds this very text, or is absent or null if there is none. -/
def MayHaveText (entries : Entries) (name : String) : Option String → Prop
  | none => entries.field? name = none
  | some text => entries.HasText name text

/-- A field that holds a sequence whose items correspond to these parts, one to one and in order. -/
def HasParts (entries : Entries) (name : String) (corresponds : Value → α → Prop) (parts : List α) :
    Prop :=
  entries.Has name fun value => ∃ items, value.seq? = some items
    ∧ List.Forall₂ corresponds items parts

/-- The same of a field that may be absent or null, there being no parts then. -/
def MayHaveParts (entries : Entries) (name : String) (corresponds : Value → α → Prop)
    (parts : List α) : Prop :=
  (entries.field? name = none ∧ parts = []) ∨ entries.HasParts name corresponds parts

theorem Has.and {form form' : Value → Prop} (h : entries.Has name form) (h' : entries.Has name form') :
    entries.Has name fun value => form value ∧ form' value := by
  obtain ⟨value, hfield, hform⟩ := h
  obtain ⟨value', hfield', hform'⟩ := h'
  obtain rfl : value = value' := Option.some.inj (hfield.symm.trans hfield')
  exact ⟨value, hfield, hform, hform'⟩

theorem HasText.unique {text text' : String} (h : entries.HasText name text)
    (h' : entries.HasText name text') : text = text' := by
  obtain ⟨value, -, htext, htext'⟩ := h.and h'
  exact Option.some.inj (htext.symm.trans htext')

theorem Has.mayHave {form form' : Value → Prop} (h : entries.Has name form)
    (himp : ∀ value, form value → form' value) : entries.MayHave name form' := by
  obtain ⟨value, hfield, hform⟩ := h
  intro value' hfield'
  obtain rfl : value = value' := Option.some.inj (hfield.symm.trans hfield')
  exact himp value hform

theorem HasParts.imp {built corresponds : Value → α → Prop} {parts : List α}
    (h : entries.HasParts name built parts)
    (himp : ∀ item part, built item part → corresponds item part) :
    entries.HasParts name corresponds parts := by
  obtain ⟨value, hfield, items, hseq, hparts⟩ := h
  exact ⟨value, hfield, items, hseq, hparts.imp himp⟩

theorem MayHaveParts.imp {built corresponds : Value → α → Prop} {parts : List α}
    (h : entries.MayHaveParts name built parts)
    (himp : ∀ item part, built item part → corresponds item part) :
    entries.MayHaveParts name corresponds parts :=
  Or.imp_right (fun hparts => hparts.imp himp) h

theorem HasParts.imp_of_form {form : Value → Prop} {built corresponds : Value → α → Prop}
    {parts : List α} (h : entries.HasParts name built parts)
    (hform : entries.MayHave name fun value => value.IsSequence form)
    (himp : ∀ item part, form item → built item part → corresponds item part) :
    entries.HasParts name corresponds parts := by
  obtain ⟨value, hfield, items, hseq, hparts⟩ := h
  obtain ⟨items', hseq', hitems⟩ := hform value hfield
  obtain rfl : items = items' := Option.some.inj (hseq.symm.trans hseq')
  have hboth := (List.forall₂_and_left _ _).mpr ⟨hitems, hparts⟩
  refine ⟨value, hfield, items, hseq, hboth.imp ?_⟩
  rintro item part ⟨hitem, hbuilt⟩
  exact himp item part hitem hbuilt

end Entries

end ApiSuite
