import ApiSuite.Proofs.Duration
import ApiSuite.Proofs.Except
import ApiSuite.Proofs.Fields
import ApiSuite.Proofs.Text.Trim
import ApiSuite.Schema.Shape

/-!
# What the shapes admit

Each shape as the set of its values, and the check of a shape accepting just these.
-/

namespace ApiSuite.Schema

/-- The text of a duration, blanks around it aside. -/
def IsDurationText (s : String) : Prop :=
  ∃ groups, Duration.Spells groups (Text.trim s).toList

/-- The name of a method in any letter case, blanks around it aside. -/
def IsMethodText (s : String) : Prop :=
  Text.upper (Text.trim s) ∈ httpMethods

/-- `[A-Za-z_][A-Za-z0-9_]*`. -/
def IsIdentifierText (s : String) : Prop :=
  ∃ first rest, s.toList = first :: rest ∧ (first.isAlpha = true ∨ first = '_')
    ∧ ∀ c ∈ rest, c.isAlphanum = true ∨ c = '_'

/-- The values of a shape. Strings, mappings and whole numbers are seen through tags, but the values
of a mapping of scalars and a body are not: those must stand there untagged. -/
def Shape.Admits : Shape → Value → Prop
  | .any, _ => True
  | .text, value => value.IsText fun _ => True
  | .nonBlankText, value => value.IsText Text.NonBlank
  | .duration, value => value.IsText IsDurationText
  | .httpMethod, value => value.IsText IsMethodText
  | .statusCode, value => ∃ code, value.nat? = some code ∧ 100 ≤ code ∧ code ≤ 599
  | .identifier, value => value.IsText IsIdentifierText
  | .scalarMap, value => ∃ entries, value.map? = some entries
      ∧ ∀ entry ∈ entries, (∃ key, entry.1.str? = some key) ∧ isScalar entry.2 = true
  | .body, value => (∃ s, value = .str s) ∨ (∃ items, value = .seq items)
      ∨ ∃ entries, value = .map entries

/-! ### Texts -/

theorem needText_eq_ok_iff {value : Value} {s : String} :
    needText value = .ok s ↔ value.str? = some s := by
  unfold needText
  split <;> simp_all

theorem needNonBlank_eq_ok_iff {value : Value} {s : String} :
    needNonBlank value = .ok s ↔ value.str? = some s ∧ Text.NonBlank s := by
  rw [needNonBlank, bind_eq_ok_iff, ← Text.isEmpty_trim_iff]
  constructor
  · rintro ⟨t, htext, hok⟩
    split at hok
    case isTrue => cases hok
    case isFalse hne =>
      cases hok
      exact ⟨needText_eq_ok_iff.mp htext, by simpa using hne⟩
  · rintro ⟨htext, hne⟩
    exact ⟨s, needText_eq_ok_iff.mpr htext, by simp [hne]⟩

theorem needNonBlank_then_iff {value : Value} {test : String → Bool} {refuse : String → Defect}
    {property : String → Prop} (htest : ∀ s, test s = true ↔ property s)
    (hnonBlank : ∀ s, property s → Text.NonBlank s) :
    (needNonBlank value >>= fun s => if test s then .ok () else .error (refuse s)) = .ok () ↔
      value.IsText property := by
  rw [bind_eq_ok_iff]
  constructor
  · rintro ⟨s, hneed, hok⟩
    split at hok
    case isTrue hpasses =>
      exact ⟨s, (needNonBlank_eq_ok_iff.mp hneed).1, (htest s).mp hpasses⟩
    case isFalse => cases hok
  · rintro ⟨s, htext, hproperty⟩
    refine ⟨s, needNonBlank_eq_ok_iff.mpr ⟨htext, hnonBlank s hproperty⟩, ?_⟩
    rw [if_pos ((htest s).mpr hproperty)]

theorem IsDurationText.nonBlank {s : String} (h : IsDurationText s) : Text.NonBlank s := by
  obtain ⟨groups, hne, hproper, htext⟩ := h
  obtain ⟨group, rest, rfl⟩ := List.exists_cons_of_ne_nil hne
  obtain ⟨hdigits, -⟩ := hproper group List.mem_cons_self
  rw [← Text.isEmpty_trim_iff, Bool.eq_false_iff, ne_eq, String.isEmpty_iff, ← String.toList_inj,
    ← htext]
  simp [Duration.Group.text, hdigits]

theorem IsMethodText.nonBlank {s : String} (h : IsMethodText s) : Text.NonBlank s := by
  rw [← Text.isEmpty_trim_iff, Bool.eq_false_iff, ne_eq, String.isEmpty_iff]
  intro hempty
  rw [IsMethodText, hempty] at h
  revert h
  decide

theorem isIdentifier_iff {s : String} : isIdentifier s = true ↔ IsIdentifierText s := by
  unfold isIdentifier IsIdentifierText
  split
  case h_1 hnil => simp [hnil]
  case h_2 first rest hcons => simp [hcons]

/-! ### Mappings of scalars -/

theorem checkScalars_eq_ok_iff {entries : Entries} :
    checkScalars entries = .ok () ↔
      ∀ entry ∈ entries, (∃ key, entry.1.str? = some key) ∧ isScalar entry.2 = true := by
  induction entries with
  | nil => simp [checkScalars]
  | cons entry rest ih =>
      obtain ⟨key, value⟩ := entry
      rw [checkScalars]
      cases hkey : key.str? with
      | none => simp [hkey]
      | some name =>
          by_cases hscalar : isScalar value = true
          · simp [hscalar, hkey, ih]
          · simp [hscalar]

/-- **The shapes mean what they admit.** The check of a shape accepts exactly its values. -/
theorem Shape.check_eq_ok_iff {shape : Shape} {value : Value} :
    shape.check value = .ok () ↔ shape.Admits value := by
  cases shape with
  | any => simp [Shape.check, Shape.Admits]
  | text =>
      simp only [Shape.check, Shape.Admits, Value.IsText, bind_eq_ok_iff, needText_eq_ok_iff]
      simp [pure, Except.pure]
  | nonBlankText =>
      simp only [Shape.check, Shape.Admits, Value.IsText, bind_eq_ok_iff, needNonBlank_eq_ok_iff]
      simp [pure, Except.pure]
  | duration =>
      exact needNonBlank_then_iff (fun _ => isDuration_iff) fun _ => IsDurationText.nonBlank
  | httpMethod =>
      refine needNonBlank_then_iff (fun s => ?_) fun _ => IsMethodText.nonBlank
      rw [isHttpMethod, List.contains_iff_mem, IsMethodText]
  | statusCode =>
      simp only [Shape.check, Shape.Admits]
      cases hcode : value.nat? with
      | none => simp
      | some code => by_cases h : 100 ≤ code ∧ code ≤ 599 <;> simp_all
  | identifier =>
      simp only [Shape.check, Shape.Admits, Value.IsText, bind_eq_ok_iff, needText_eq_ok_iff]
      simp [isIdentifier_iff]
  | scalarMap =>
      simp only [Shape.check, Shape.Admits]
      cases hmap : value.map? with
      | none => simp
      | some entries => simp [checkScalars_eq_ok_iff]
  | body => cases value <;> simp [Shape.check, Shape.Admits]

end ApiSuite.Schema
