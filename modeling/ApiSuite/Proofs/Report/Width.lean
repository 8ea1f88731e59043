import ApiSuite.Report
import Mathlib.Data.List.Infix

/-!
# How wide values are shown

A text that fits is shown as it is, and any other as its beginning with three dots. The dots are there
however narrow the report is, so that a text of more characters than allowed is shown in three where
fewer are allowed, and else in just as many as are allowed.
-/

namespace ApiSuite

/-- All that is to be shown of a value, the quotes around a text aside. -/
def Value.fullText : Value → String
  | .str s => s
  | value =>
    match value.toJson with
    | .ok json => json.line
    | .error _ => "?"

/-- What is shown of a value, with quotes around it if the value is a text. -/
def Value.enclose (value : Value) (shown : String) : String :=
  match value with
  | .str _ => "\"" ++ shown ++ "\""
  | _ => shown

namespace Report

variable {report : Report} {text : String}

theorem shorten_of_le (h : text.length ≤ report.width) : report.shorten text = text :=
  if_pos h

theorem shorten_of_lt (h : report.width < text.length) :
    report.shorten text = String.ofList (text.toList.take (report.width - 3)) ++ "..." :=
  if_neg (Nat.not_le.mpr h)

theorem length_take_width (h : report.width < text.length) :
    (String.ofList (text.toList.take (report.width - 3))).length = report.width - 3 := by
  rw [String.length_ofList, List.length_take, String.length_toList]
  omega

theorem length_shorten_of_lt (h : report.width < text.length) :
    (report.shorten text).length = max 3 report.width := by
  have hdots : "...".length = 3 := by decide
  rw [shorten_of_lt h, String.length_append, length_take_width h, hdots]
  omega

theorem length_shorten_le_iff :
    (report.shorten text).length ≤ report.width ↔ 3 ≤ report.width ∨ text.length ≤ report.width := by
  obtain hfits | hlong := le_or_gt text.length report.width
  · rw [shorten_of_le hfits]
    exact iff_of_true hfits (.inr hfits)
  · rw [length_shorten_of_lt hlong]
    omega

theorem shorten_shorten : report.shorten (report.shorten text) = report.shorten text := by
  by_cases hkept : (report.shorten text).length ≤ report.width
  · exact shorten_of_le hkept
  · -- Nothing but the dots is left of the text, and nothing but the dots is left of them.
    have hnarrow : ¬ (3 ≤ report.width ∨ text.length ≤ report.width) := mt length_shorten_le_iff.mpr hkept
    have hnone : report.width - 3 = 0 := by omega
    have hdots {text : String} (hlong : report.width < text.length) : report.shorten text = "..." := by
      rw [shorten_of_lt hlong, hnone, List.take_zero]
      rfl
    rw [hdots (Nat.not_le.mp hkept), hdots (by omega)]

theorem showValue_eq (value : Value) :
    report.showValue value = value.enclose (report.shorten value.fullText) := by
  cases value <;> rfl

theorem showConfig_eq (config : Config) :
    report.showConfig config = String.intercalate ", " (config.entries.map fun entry =>
      entry.1 ++ "=" ++ entry.2.enclose (report.shorten entry.2.fullText)) := by
  simp only [showConfig, showValue_eq]

/-- **Widths.** A text is shown whole if it fits, and else a proper part of its beginning with dots,
and so it stays when it is shortened again. It then has no more characters than the width allows unless
that is less than the dots take, and the same goes for all values of a configuration. -/
theorem shorten_fits_iff (report : Report) (text : String) (config : Config) :
    ((report.shorten text).length ≤ report.width ↔ 3 ≤ report.width ∨ text.length ≤ report.width)
    ∧ ((text.length ≤ report.width ∧ report.shorten text = text)
      ∨ (report.width < text.length ∧ ∃ front : String, front.toList <+: text.toList
          ∧ front.length < text.length ∧ report.shorten text = front ++ "..."))
    ∧ report.shorten (report.shorten text) = report.shorten text
    ∧ report.showConfig config = String.intercalate ", " (config.entries.map fun entry =>
        entry.1 ++ "=" ++ entry.2.enclose (report.shorten entry.2.fullText))
    ∧ ((∀ entry ∈ config.entries, (report.shorten entry.2.fullText).length ≤ report.width) ↔
        3 ≤ report.width ∨ ∀ entry ∈ config.entries, entry.2.fullText.length ≤ report.width) := by
  refine ⟨length_shorten_le_iff, ?_, shorten_shorten, showConfig_eq config, ?_⟩
  · obtain hfits | hlong := le_or_gt text.length report.width
    · exact .inl ⟨hfits, shorten_of_le hfits⟩
    · refine .inr ⟨hlong, _, ?_, ?_, shorten_of_lt hlong⟩
      · rw [String.toList_ofList]
        exact List.take_prefix _ _
      · rw [length_take_width hlong]
        omega
  · simp only [length_shorten_le_iff]
    by_cases hwide : 3 ≤ report.width <;> simp [hwide]

/-- Three characters are shown where two are allowed. -/
theorem not_shorten_fits_narrow :
    ¬ ∀ (report : Report) (text : String), (report.shorten text).length ≤ report.width := by
  intro h
  have hnarrow : (shorten ⟨false, 2, false⟩ "abc").length = 3 := by decide
  exact absurd (h ⟨false, 2, false⟩ "abc") (by rw [hnarrow]; decide)

end Report

end ApiSuite
