import ApiSuite.Proofs.Suite.Rules
import Mathlib.Data.List.Sort

/-!
# One suite for a document

At most one suite mirrors a document: every part of a suite is fixed by what is written at its place.
-/

namespace ApiSuite

open Schema

variable {α : Type}

theorem Config.ext_get? {config config' : Config}
    (h : ∀ name, config.get? name = config'.get? name) : config = config' := by
  have hmem : ∀ entry, entry ∈ config.entries ↔ entry ∈ config'.entries := by
    rintro ⟨name, value⟩
    rw [mem_entries_iff, mem_entries_iff, h]
  obtain ⟨entries, hsorted⟩ := config
  obtain ⟨entries', hsorted'⟩ := config'
  have hirrefl : Std.Irrefl fun a b : String × Value => a.1 < b.1 := ⟨fun a => String.lt_irrefl a.1⟩
  have hantisymm : Std.Antisymm fun a b : String × Value => a.1 < b.1 :=
    ⟨fun a b hlt hgt => absurd hgt (String.lt_asymm hlt)⟩
  obtain rfl : entries = entries' := hsorted.eq_of_mem_iff hsorted' hmem
  rfl

namespace Entries

variable {entries : Entries} {name : String} {parts parts' : List α}
  {corresponds : Value → α → Prop}

theorem HasTrimmed.unique {text text' : String} (h : entries.HasTrimmed name text)
    (h' : entries.HasTrimmed name text') : text = text' := by
  obtain ⟨written, hwritten, rfl⟩ := h
  obtain ⟨written', hwritten', rfl⟩ := h'
  rw [hwritten.unique hwritten']

theorem MayHaveText.unique {text text' : Option String} (h : entries.MayHaveText name text)
    (h' : entries.MayHaveText name text') : text = text' := by
  cases text with
  | none =>
      cases text' with
      | none => rfl
      | some s =>
          obtain ⟨value, hfield, -⟩ := h'
          rw [show entries.field? name = none from h] at hfield
          cases hfield
  | some s =>
      cases text' with
      | none =>
          obtain ⟨value, hfield, -⟩ := h
          rw [show entries.field? name = none from h'] at hfield
          cases hfield
      | some s' => rw [HasText.unique h h']

theorem HasParts.unique (h : entries.HasParts name corresponds parts)
    (h' : entries.HasParts name corresponds parts')
    (hone : Relator.RightUnique corresponds) : parts = parts' := by
  obtain ⟨value, -, ⟨items, hseq, hparts⟩, items', hseq', hparts'⟩ := h.and h'
  obtain rfl : items = items' := Option.some.inj (hseq.symm.trans hseq')
  exact hone.forall₂ hparts hparts'

theorem MayHaveParts.unique (h : entries.MayHaveParts name corresponds parts)
    (h' : entries.MayHaveParts name corresponds parts')
    (hone : Relator.RightUnique corresponds) : parts = parts' := by
  obtain ⟨hnone, rfl⟩ | hparts := h
  · obtain ⟨-, rfl⟩ | ⟨value, hfield, -⟩ := h'
    · rfl
    · rw [hnone] at hfield
      cases hfield
  · obtain ⟨hnone, rfl⟩ | hparts' := h'
    · obtain ⟨value, hfield, -⟩ := hparts
      rw [hnone] at hfield
      cases hfield
    · exact hparts.unique hparts' hone

end Entries

theorem Assertion.Mirrors.unique {assertion assertion' : Assertion} {entries : Entries}
    (h : assertion.Mirrors entries) (h' : assertion'.Mirrors entries) : assertion = assertion' := by
  have hkind : assertion.kind = assertion'.kind :=
    AssertionKind.name_injective (h.type.unique h'.type)
  have hpayload := h.payload
  have hpayload' := h'.payload
  cases assertion with
  | statusCode code =>
      cases assertion' with
      | statusCode code' =>
          obtain ⟨value, -, hcode, hcode'⟩ := Entries.Has.and hpayload hpayload'
          have hsame : code.toNat = code'.toNat := Option.some.inj (hcode.symm.trans hcode')
          rw [UInt16.toNat_inj.mp hsame]
      | _ => cases hkind
  | jsonPath path expected =>
      cases assertion' with
      | jsonPath path' expected' =>
          obtain ⟨hpath, hexpected⟩ := hpayload
          obtain ⟨hpath', hexpected'⟩ := hpayload'
          have hsame : expected = expected' := Option.some.inj (hexpected.symm.trans hexpected')
          rw [hpath.unique hpath', hsame]
      | _ => cases hkind
  | header name expected =>
      cases assertion' with
      | header name' expected' =>
          obtain ⟨hname, hexpected⟩ := hpayload
          obtain ⟨hname', hexpected'⟩ := hpayload'
          rw [hname.unique hname', hexpected.unique hexpected']
      | _ => cases hkind
  | bodyContains expected =>
      cases assertion' with
      | bodyContains expected' => rw [Entries.HasText.unique hpayload hpayload']
      | _ => cases hkind

theorem Capture.Mirrors.unique {capture capture' : Capture} {entries : Entries}
    (h : capture.Mirrors entries) (h' : capture'.Mirrors entries) : capture = capture' := by
  cases capture
  cases capture'
  rw [Capture.mk.injEq]
  exact ⟨h.jsonPath.unique h'.jsonPath, h.name.unique h'.name⟩

theorem rightUnique_isMapping {mirrors : α → Entries → Prop}
    (hone : ∀ {part part' entries}, mirrors part entries → mirrors part' entries → part = part') :
    Relator.RightUnique fun (item : Value) part => item.IsMapping (mirrors part) := by
  intro item part part' h h'
  obtain ⟨entries, -, hpart, hpart'⟩ := h.and h'
  exact hone hpart hpart'

theorem Config.Mirrors.unique {config config' : Config} {plugin : Plugin} {entries : Entries}
    (h : config.Mirrors plugin entries) (h' : config'.Mirrors plugin entries) : config = config' :=
  Config.ext_get? fun _ => h.get?_eq.trans h'.get?_eq.symm

theorem Step.Mirrors.unique {step step' : Step} {entries : Entries} (h : step.Mirrors entries)
    (h' : step'.Mirrors entries) : step = step' := by
  have hplugin : step.plugin = step'.plugin := Plugin.name_injective (h.plugin.unique h'.plugin)
  have hconfig : step.config = step'.config := by
    obtain ⟨value, -, hmap, hmap'⟩ := h.config.and h'.config
    obtain ⟨settings, -, hmirrors, hmirrors'⟩ := hmap.and hmap'
    rw [← hplugin] at hmirrors'
    exact hmirrors.unique hmirrors'
  have hassertions := h.assertions.unique h'.assertions
    (rightUnique_isMapping Assertion.Mirrors.unique)
  have hcaptures := h.captures.unique h'.captures (rightUnique_isMapping Capture.Mirrors.unique)
  cases step
  cases step'
  rw [Step.mk.injEq]
  exact ⟨h.name.unique h'.name, hplugin, hconfig, hassertions, hcaptures⟩

theorem Test.Mirrors.unique {test test' : Test} {entries : Entries} (h : test.Mirrors entries)
    (h' : test'.Mirrors entries) : test = test' := by
  have hsteps := h.steps.unique h'.steps (rightUnique_isMapping Step.Mirrors.unique)
  cases test
  cases test'
  rw [Test.mk.injEq]
  exact ⟨h.name.unique h'.name, h.description.unique h'.description, hsteps⟩

theorem Suite.Mirrors.unique {suite suite' : Suite} {entries : Entries} (h : suite.Mirrors entries)
    (h' : suite'.Mirrors entries) : suite = suite' := by
  have htests := h.tests.unique h'.tests (rightUnique_isMapping Test.Mirrors.unique)
  cases suite
  cases suite'
  rw [Suite.mk.injEq]
  exact ⟨h.name.unique h'.name, h.description.unique h'.description, htests⟩

end ApiSuite
