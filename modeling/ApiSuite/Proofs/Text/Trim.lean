import ApiSuite.Text.Blank
import Mathlib.Data.List.DropRight

/-!
# Trimming

A text is its own trim exactly when no blank stands at either end, so trimming twice is trimming
once; and what is left is empty exactly when every character was blank.
-/

namespace ApiSuite.Text

/-- A text with a character that is not white space. -/
def NonBlank (s : String) : Prop :=
  ∃ c ∈ s.toList, isBlank c = false

theorem toList_trim (s : String) :
    (trim s).toList = (s.toList.dropWhile isBlank).rdropWhile isBlank := by
  rw [trim, String.toList_ofList, List.rdropWhile]

theorem trim_eq_empty_iff {s : String} : trim s = "" ↔ ∀ c ∈ s.toList, isBlank c = true := by
  rw [← String.toList_inj, toList_trim, String.toList_empty, List.rdropWhile_eq_nil_iff]
  constructor
  · intro hblank c hc
    by_contra hnot
    have hdrop : s.toList.dropWhile isBlank ≠ [] := fun hnil =>
      hnot (List.dropWhile_eq_nil_iff.mp hnil c hc)
    have hhead := hblank _ (List.head_mem hdrop)
    rw [List.head_dropWhile_not isBlank hdrop] at hhead
    exact Bool.false_ne_true hhead
  · intro hblank c hc
    exact hblank c ((List.dropWhile_suffix isBlank).subset hc)

theorem isEmpty_trim_iff {s : String} : (trim s).isEmpty = false ↔ NonBlank s := by
  rw [Bool.eq_false_iff, ne_eq, String.isEmpty_iff, trim_eq_empty_iff]
  simp [NonBlank]

theorem trim_eq_self_iff {s : String} :
    trim s = s ↔ ∀ h : s.toList ≠ [],
      isBlank (s.toList.head h) = false ∧ isBlank (s.toList.getLast h) = false := by
  rw [← String.toList_inj, toList_trim]
  constructor
  · intro htrim h
    have hdrop : s.toList.dropWhile isBlank = s.toList := by
      apply (List.dropWhile_suffix isBlank).eq_of_length_le
      calc s.toList.length
          = ((s.toList.dropWhile isBlank).rdropWhile isBlank).length := by rw [htrim]
        _ ≤ (s.toList.dropWhile isBlank).length := (List.rdropWhile_prefix isBlank _).length_le
    rw [hdrop] at htrim
    have hlast := List.rdropWhile_eq_self_iff.mp htrim h
    have hfirst := List.head_dropWhile_not isBlank (l := s.toList) (by rwa [hdrop])
    simp only [hdrop] at hfirst
    exact ⟨hfirst, by simpa using hlast⟩
  · intro hends
    have hdrop : s.toList.dropWhile isBlank = s.toList := by
      refine List.dropWhile_eq_self_iff.mpr fun hpos => ?_
      have hfirst := (hends (List.ne_nil_of_length_pos hpos)).1
      rw [List.head_eq_getElem] at hfirst
      simp [hfirst]
    rw [hdrop]
    exact List.rdropWhile_eq_self_iff.mpr fun h => by simp [(hends h).2]

theorem trim_trim (s : String) : trim (trim s) = trim s := by
  rw [trim_eq_self_iff]
  simp only [toList_trim]
  intro h
  have hfront := List.rdropWhile_prefix isBlank (s.toList.dropWhile isBlank)
  have hlast := List.rdropWhile_last_not isBlank _ h
  refine ⟨?_, by simpa using hlast⟩
  rw [hfront.head h]
  exact List.head_dropWhile_not isBlank _

end ApiSuite.Text
