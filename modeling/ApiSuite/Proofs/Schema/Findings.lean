import ApiSuite.Proofs.Places
import ApiSuite.Schema.Findings
import Mathlib.Data.List.Forall2

/-!
# Findings of a part and of the whole

What is found in a document is what is found in its parts, each at the place of its part. So nothing
is found in the whole exactly when nothing is found in any part.
-/

namespace ApiSuite.Schema.Findings

def Clean (found : Findings) : Prop :=
  found.defects = []

theorem clean_none : Findings.none.Clean := rfl

theorem not_clean_here (defect : Defect) : ¬ (here defect).Clean := by
  simp [Clean, here]

theorem defects_append (first second : Findings) :
    (first ++ second).defects = first.defects ++ second.defects := rfl

theorem clean_append_iff {first second : Findings} :
    (first ++ second).Clean ↔ first.Clean ∧ second.Clean := by
  simp [Clean, defects_append]

theorem defects_join (parts : List Findings) : (join parts).defects = parts.flatMap (·.defects) := by
  induction parts with
  | nil => rfl
  | cons part parts ih =>
      rw [List.flatMap_cons, ← ih]
      rfl

theorem clean_join_iff {parts : List Findings} :
    (join parts).Clean ↔ ∀ part ∈ parts, part.Clean := by
  simp [Clean, defects_join]

theorem mem_defects_under {base path : FieldPath} {defect : Defect} {found : Findings} :
    (path, defect) ∈ (found.under base).defects ↔
      ∃ inner, (inner, defect) ∈ found.defects ∧ path = base.under inner := by
  simp only [under, List.mem_map, Prod.mk.injEq, Prod.exists]
  constructor
  · rintro ⟨inner, defect', hmem, rfl, rfl⟩
    exact ⟨inner, hmem, rfl⟩
  · rintro ⟨inner, hmem, rfl⟩
    exact ⟨inner, defect, hmem, rfl, rfl⟩

theorem defects_under_append (base : FieldPath) (found other : Findings) :
    ((found ++ other).under base).defects = (found.under base ++ other.under base).defects :=
  List.map_append

theorem defects_under_under (outer base : FieldPath) (found : Findings) :
    ((found.under base).under outer).defects = (found.under (outer.under base)).defects := by
  simp [under, FieldPath.under_assoc]

theorem defects_under_root (found : Findings) : (found.under .root).defects = found.defects := by
  simp [under, FieldPath.root_under]

theorem defects_under_congr {found found' : Findings} (base : FieldPath)
    (h : found.defects = found'.defects) :
    (found.under base).defects = (found'.under base).defects := by
  rw [under, under, h]

theorem defects_ofItems_congr {check : Value → Findings} {items items' : List Value}
    (h : List.Forall₂ (fun item item' => (check item).defects = (check item').defects) items items') :
    (ofItems check items).defects = (ofItems check items').defects := by
  rw [ofItems, ofItems, defects_join, defects_join, List.flatMap_def, List.flatMap_def]
  congr 1
  refine List.ext_getElem (by simp [h.length_eq]) fun i hi hi' => ?_
  rw [List.length_map, List.length_mapIdx] at hi hi'
  rw [List.getElem_map, List.getElem_map, List.getElem_mapIdx, List.getElem_mapIdx]
  exact defects_under_congr _ (h.get hi hi')

theorem clean_under_iff {base : FieldPath} {found : Findings} :
    (found.under base).Clean ↔ found.Clean := by
  simp [Clean, under]

theorem clean_atKey_iff {name : String} {found : Findings} :
    (found.atKey name).Clean ↔ found.Clean :=
  clean_under_iff

theorem mem_defects_ofItems {check : Value → Findings} {items : List Value} {path : FieldPath}
    {defect : Defect} :
    (path, defect) ∈ (ofItems check items).defects ↔
      ∃ i item inner, items[i]? = some item ∧ (inner, defect) ∈ (check item).defects
        ∧ path = (FieldPath.root.index i).under inner := by
  simp only [ofItems, defects_join, List.mem_flatMap, List.mem_mapIdx]
  constructor
  · rintro ⟨part, ⟨i, hi, rfl⟩, hmem⟩
    obtain ⟨inner, hinner, hpath⟩ := mem_defects_under.mp hmem
    exact ⟨i, items[i], inner, List.getElem?_eq_getElem hi, hinner, hpath⟩
  · rintro ⟨i, item, inner, hitem, hinner, hpath⟩
    obtain ⟨hi, rfl⟩ := List.getElem?_eq_some_iff.mp hitem
    exact ⟨_, ⟨i, hi, rfl⟩, mem_defects_under.mpr ⟨inner, hinner, hpath⟩⟩

theorem clean_ofItems_iff {check : Value → Findings} {items : List Value} :
    (ofItems check items).Clean ↔ ∀ item ∈ items, (check item).Clean := by
  rw [ofItems, clean_join_iff]
  constructor
  · intro h item hitem
    obtain ⟨i, hi, rfl⟩ := List.getElem_of_mem hitem
    exact clean_under_iff.mp (h _ (List.mem_mapIdx.mpr ⟨i, hi, rfl⟩))
  · intro h part hpart
    obtain ⟨i, hi, rfl⟩ := List.mem_mapIdx.mp hpart
    exact clean_under_iff.mpr (h _ (List.getElem_mem hi))

end ApiSuite.Schema.Findings
