import ApiSuite.Proofs.Except
import ApiSuite.Proofs.Fields
import ApiSuite.Proofs.Places
import ApiSuite.Suite.Build

/-!
# Builds and their faults

What it takes for the steps of a build to succeed, and where the fault of a step lies if it does not.
-/

namespace ApiSuite

variable {α : Type}

namespace Built

theorem under_eq_ok_iff {base : FieldPath} {built : Built α} {a : α} :
    under base built = .ok a ↔ built = .ok a :=
  mapError_eq_ok_iff

theorem under_eq_error_iff {base : FieldPath} {built : Built α} {error : BuildError} :
    under base built = .error error ↔
      ∃ inner, built = .error inner ∧ { inner with path := base.under inner.path } = error :=
  mapError_eq_error_iff

theorem atKey_eq_ok_iff {name : String} {built : Built α} {a : α} :
    atKey name built = .ok a ↔ built = .ok a :=
  under_eq_ok_iff

theorem atKey_fail (name : String) (fault : BuildFault) :
    (atKey name (fail fault) : Built α) = .error ⟨FieldPath.root.key name, fault⟩ := by
  rw [← FieldPath.under_root (FieldPath.root.key name)]
  rfl

theorem ofOption_eq_ok_iff {fault : BuildFault} {found : Option α} {a : α} :
    ofOption fault found = .ok a ↔ found = some a := by
  cases found <;> simp [ofOption, fail]

theorem ofItems_eq_ok_iff {build : Value → Built α} {start : Nat} {items : List Value}
    {built : List α} :
    ofItems build start items = .ok built ↔
      List.Forall₂ (fun item a => build item = .ok a) items built := by
  induction items generalizing start built with
  | nil => cases built <;> simp [ofItems]
  | cons item items ih =>
      simp only [ofItems, bind_eq_ok_iff, under_eq_ok_iff, ih]
      constructor
      · rintro ⟨a, hitem, rest, hitems, hbuilt⟩
        cases hbuilt
        exact .cons hitem hitems
      · rintro (_ | ⟨hitem, hitems⟩)
        exact ⟨_, hitem, _, hitems, rfl⟩

theorem ofItems_eq_error {build : Value → Built α} {start : Nat} {items : List Value}
    {error : BuildError} (h : ofItems build start items = .error error) :
    ∃ i item inner, items[i]? = some item ∧ build item = .error inner
      ∧ error.path = (FieldPath.root.index (start + i)).under inner.path := by
  induction items generalizing start with
  | nil => cases h
  | cons item items ih =>
      simp only [ofItems, bind_eq_error_iff, under_eq_error_iff] at h
      obtain ⟨inner, hitem, rfl⟩ | ⟨a, -, hrest | ⟨rest, -, hpure⟩⟩ := h
      · exact ⟨0, item, inner, rfl, hitem, rfl⟩
      · obtain ⟨i, later, inner, hlater, hinner, hpath⟩ := ih hrest
        exact ⟨i + 1, later, inner, hlater, hinner, by rw [hpath, Nat.add_right_comm]; rfl⟩
      · cases hpure

end Built

namespace Suite

variable {value : Value} {entries : Entries} {name : String}

theorem needMapping_eq_ok_iff : needMapping value = .ok entries ↔ value.map? = some entries :=
  Built.ofOption_eq_ok_iff

theorem needMapping_bind_eq_ok_iff {build : Entries → Built α} {a : α} :
    needMapping value >>= build = .ok a ↔ value.IsMapping fun entries => build entries = .ok a := by
  simp only [bind_eq_ok_iff, needMapping_eq_ok_iff, Value.IsMapping]

theorem needField_eq_ok_iff : needField entries name = .ok value ↔ entries.field? name = some value := by
  rw [needField, Built.atKey_eq_ok_iff, Built.ofOption_eq_ok_iff]

theorem textField_eq_ok_iff {text : String} :
    textField entries name = .ok text ↔ entries.HasText name text := by
  simp only [textField, bind_eq_ok_iff, needField_eq_ok_iff, Built.atKey_eq_ok_iff,
    Built.ofOption_eq_ok_iff, Entries.HasText, Entries.Has]

theorem nameField_eq_ok_iff {text : String} :
    nameField entries = .ok text ↔ entries.HasTrimmed "name" text := by
  simp only [nameField, map_eq_ok_iff, textField_eq_ok_iff, Entries.HasTrimmed, eq_comm (a := text)]

theorem someItems_eq_ok_iff {build : Value → Built α} {built : List α} :
    someItems entries name build = .ok built ↔
      entries.HasParts name (fun item a => build item = .ok a) built := by
  simp only [someItems, bind_eq_ok_iff, needField_eq_ok_iff, Built.atKey_eq_ok_iff,
    Built.ofOption_eq_ok_iff, Built.ofItems_eq_ok_iff, Entries.HasParts, Entries.Has]

theorem anyItems_eq_ok_iff {build : Value → Built α} {built : List α} :
    anyItems entries name build = .ok built ↔
      List.Forall₂ (fun item a => build item = .ok a)
        ((entries.field? name >>= Value.seq?).getD []) built := by
  rw [anyItems, Built.atKey_eq_ok_iff, Built.ofItems_eq_ok_iff]

theorem needField_eq_error {error : BuildError} (h : needField entries name = .error error) :
    error.path = FieldPath.root.key name := by
  unfold needField at h
  cases hfield : entries.field? name with
  | none =>
      rw [hfield, Built.ofOption, Built.atKey_fail] at h
      cases h
      rfl
  | some value =>
      rw [hfield] at h
      cases h

theorem textField_eq_error {error : BuildError} (h : textField entries name = .error error) :
    error.path = FieldPath.root.key name := by
  obtain hfield | ⟨value, -, htext⟩ := bind_eq_error_iff.mp h
  · exact needField_eq_error hfield
  · cases htext' : value.str? with
    | none =>
        rw [htext', Built.ofOption, Built.atKey_fail] at htext
        cases htext
        rfl
    | some text =>
        rw [htext'] at htext
        cases htext

end Suite

end ApiSuite
