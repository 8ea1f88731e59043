import ApiSuite.Proofs.Except
import ApiSuite.Schema.Shape
import Mathlib.Data.List.Infix

/-!
# What messages tell

That a field is missing is said in words of its own, and no shape says it of a value that is there.
-/

namespace ApiSuite.Schema

def Defect.lead : Defect → String
  | .missing _ => "missing required field '"
  | .mismatch _ _ => "expected "
  | .blankText => "must not be empty"
  | .noItems => "must contain at least one item"
  | .keyNotText _ => "keys must be strings, found "
  | .notScalar _ _ => "value of '"
  | .notDuration _ => "invalid duration '"
  | .notMethod _ => "unknown HTTP method '"
  | .notIdentifier _ => "'"
  | .codeOutOfRange _ => "status code "
  | .unknownPlugin _ => "unknown plugin '"
  | .unknownAssertion _ => "unknown assertion type '"

theorem toList_prefix_append {lead s : String} (t : String) (h : lead.toList <+: s.toList) :
    lead.toList <+: (s ++ t).toList := by
  rw [String.toList_append]
  exact h.trans (List.prefix_append _ _)

theorem Defect.lead_prefix_message (defect : Defect) :
    defect.lead.toList <+: defect.message.toList := by
  cases defect with
  | blankText => exact List.prefix_rfl
  | noItems => exact List.prefix_rfl
  | keyNotText => exact toList_prefix_append _ List.prefix_rfl
  | missing | notDuration | notIdentifier | codeOutOfRange =>
      exact toList_prefix_append _ (toList_prefix_append _ List.prefix_rfl)
  | mismatch | notScalar | notMethod | unknownPlugin | unknownAssertion =>
      exact toList_prefix_append _ (toList_prefix_append _ (toList_prefix_append _
        List.prefix_rfl))

theorem Defect.leads_apart {defect : Defect} (h : ∀ field, defect ≠ .missing field)
    (field : String) : ¬ defect.lead.toList <+: (missing field).lead.toList
      ∧ ¬ (missing field).lead.toList <+: defect.lead.toList := by
  cases defect with
  | missing field => exact (h field rfl).elim
  | _ =>
      dsimp only [lead]
      decide +kernel

theorem Defect.message_ne_missing {defect : Defect} (h : ∀ field, defect ≠ .missing field)
    (field : String) : defect.message ≠ "missing required field '" ++ field ++ "'" := by
  intro heq
  have hmessage := defect.lead_prefix_message
  have hmissing := (Defect.missing field).lead_prefix_message
  rw [heq] at hmessage
  obtain hprefix | hprefix := List.prefix_or_prefix_of_prefix hmessage hmissing
  · exact (Defect.leads_apart h field).1 hprefix
  · exact (Defect.leads_apart h field).2 hprefix

/-! ### Values that are there -/

theorem needText_ne_missing (value : Value) (field : String) :
    needText value ≠ .error (.missing field) := by
  unfold needText
  split <;> simp

theorem needNonBlank_ne_missing (value : Value) (field : String) :
    needNonBlank value ≠ .error (.missing field) := by
  intro h
  obtain hneed | ⟨s, -, hblank⟩ := bind_eq_error_iff.mp h
  · exact needText_ne_missing value field hneed
  · split at hblank <;> cases hblank

theorem checkScalars_ne_missing (entries : Entries) (field : String) :
    checkScalars entries ≠ .error (.missing field) := by
  induction entries with
  | nil => exact nofun
  | cons entry rest ih =>
      unfold checkScalars
      split
      · exact nofun
      · split
        · exact ih
        · exact nofun

theorem bind_ne_missing {needed : Except Defect String} {test : String → Except Defect Unit}
    {field : String} (hneeded : needed ≠ .error (.missing field))
    (htest : ∀ s, test s ≠ .error (.missing field)) :
    needed >>= test ≠ .error (.missing field) := by
  intro h
  obtain hneed | ⟨s, -, hs⟩ := bind_eq_error_iff.mp h
  · exact hneeded hneed
  · exact htest s hs

theorem Shape.check_ne_missing (shape : Shape) (value : Value) (field : String) :
    shape.check value ≠ .error (.missing field) := by
  have htext := needText_ne_missing value field
  have hnonBlank := needNonBlank_ne_missing value field
  cases shape with
  | any => exact nofun
  | text => exact bind_ne_missing htext fun s => nofun
  | nonBlankText => exact bind_ne_missing hnonBlank fun s => nofun
  | duration =>
      refine bind_ne_missing hnonBlank fun s => ?_
      split <;> exact nofun
  | httpMethod =>
      refine bind_ne_missing hnonBlank fun s => ?_
      split <;> exact nofun
  | statusCode =>
      simp only [Shape.check]
      split
      · split <;> exact nofun
      · exact nofun
  | identifier =>
      refine bind_ne_missing htext fun s => ?_
      split <;> exact nofun
  | scalarMap =>
      simp only [Shape.check]
      split
      · exact checkScalars_ne_missing _ field
      · exact nofun
  | body =>
      simp only [Shape.check]
      split <;> exact nofun

end ApiSuite.Schema
