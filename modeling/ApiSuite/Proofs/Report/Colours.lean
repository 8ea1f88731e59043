import ApiSuite.Proofs.Text.Numerals
import ApiSuite.Report
import Mathlib.Data.List.Forall2

/-!
# Colours are decoration

The lines of a report in colours are those of the report without colours, with codes around some of
their parts. Codes begin with a character of their own, and none is the beginning of another. So what
is left of a line when all codes are deleted is the line without colours, if that has no such character.
-/

namespace ApiSuite

namespace Colour

def escape : Char :=
  '\x1b'

def codes : List (List Char) :=
  [red.code.toList, green.code.toList, yellow.code.toList, cyan.code.toList, reset.toList]

theorem code_mem_codes (colour : Colour) : colour.code.toList ∈ codes := by
  cases colour <;> decide

theorem reset_mem_codes : reset.toList ∈ codes := by
  decide

theorem head?_of_mem_codes : ∀ code ∈ codes, code.head? = some escape := by
  decide

theorem eq_of_prefix : ∀ code ∈ codes, ∀ code' ∈ codes, code <+: code' → code = code' := by
  decide

/-- The characters that are left when every occurrence of a code is deleted. -/
def deleteCodes : List Char → List Char
  | [] => []
  | c :: rest =>
    match codes.find? fun code => code.isPrefixOf (c :: rest) with
    | some code => deleteCodes (rest.drop (code.length - 1))
    | none => c :: deleteCodes rest
termination_by text => text.length

/-- The line without any occurrence of a code. -/
def uncoloured (line : String) : String :=
  String.ofList (deleteCodes line.toList)

variable {text rest : List Char}

theorem deleteCodes_cons_of_ne {c : Char} (h : c ≠ escape) :
    deleteCodes (c :: rest) = c :: deleteCodes rest := by
  have hnone : codes.find? (fun code => code.isPrefixOf (c :: rest)) = none := by
    rw [List.find?_eq_none]
    intro code hcode hprefix
    obtain ⟨more, hmore⟩ := List.isPrefixOf_iff_prefix.mp hprefix
    have hhead := head?_of_mem_codes code hcode
    cases code with
    | nil => cases hhead
    | cons first code => exact h ((List.cons.inj hmore).1.symm.trans (Option.some.inj hhead))
  rw [deleteCodes, hnone]

theorem deleteCodes_append (h : escape ∉ text) :
    deleteCodes (text ++ rest) = text ++ deleteCodes rest := by
  induction text with
  | nil => rfl
  | cons c text ih =>
      have hc : c ≠ escape := (List.ne_of_not_mem_cons h).symm
      rw [List.cons_append, deleteCodes_cons_of_ne hc, ih (List.not_mem_of_not_mem_cons h),
        List.cons_append]

theorem deleteCodes_code {code : List Char} (hcode : code ∈ codes) :
    deleteCodes (code ++ rest) = deleteCodes rest := by
  have hfound : codes.find? (fun other => other.isPrefixOf (code ++ rest)) = some code := by
    have hsome : (codes.find? fun other => other.isPrefixOf (code ++ rest)).isSome = true :=
      List.find?_isSome.mpr
        ⟨code, hcode, List.isPrefixOf_iff_prefix.mpr (List.prefix_append code rest)⟩
    obtain ⟨found, hfind⟩ := Option.isSome_iff_exists.mp hsome
    have hmem := List.mem_of_find?_eq_some hfind
    have hstarts := List.find?_some hfind
    have hprefix : found <+: code ++ rest := List.isPrefixOf_iff_prefix.mp hstarts
    -- Two codes that begin the same text begin each other.
    obtain hbegins | hbegins := List.prefix_or_prefix_of_prefix hprefix (List.prefix_append code rest)
    · rw [hfind, eq_of_prefix found hmem code hcode hbegins]
    · rw [hfind, eq_of_prefix code hcode found hmem hbegins]
  cases code with
  | nil => cases head?_of_mem_codes [] hcode
  | cons c code =>
      rw [List.cons_append] at hfound ⊢
      rw [deleteCodes, hfound]
      dsimp only
      rw [List.length_cons, Nat.add_sub_cancel, List.drop_left]

end Colour

open Colour

/-- The first line is the second one with codes put around parts of it. -/
inductive Decorates : String → String → Prop where
  | same (text : String) : Decorates text text
  | painted (colour : Colour) (text : String) : Decorates (colour.code ++ text ++ reset) text
  | append {line line' plain plain' : String} (h : Decorates line plain)
      (h' : Decorates line' plain') : Decorates (line ++ line') (plain ++ plain')

theorem Decorates.deleteCodes_append {line plain : String} (h : Decorates line plain)
    (hplain : escape ∉ plain.toList) (rest : List Char) :
    deleteCodes (line.toList ++ rest) = plain.toList ++ deleteCodes rest := by
  induction h generalizing rest with
  | same text => exact Colour.deleteCodes_append hplain
  | painted colour text =>
      rw [String.toList_append, String.toList_append, List.append_assoc, List.append_assoc,
        deleteCodes_code colour.code_mem_codes, Colour.deleteCodes_append hplain,
        deleteCodes_code reset_mem_codes]
  | append h h' ih ih' =>
      rw [String.toList_append, List.mem_append, not_or] at hplain
      rw [String.toList_append, String.toList_append, List.append_assoc, List.append_assoc,
        ih hplain.1, ih' hplain.2]

theorem Decorates.uncoloured_eq {line plain : String} (h : Decorates line plain)
    (hplain : escape ∉ plain.toList) : uncoloured line = plain := by
  have hdelete := h.deleteCodes_append hplain []
  have hnil : deleteCodes [] = [] := by rw [deleteCodes]
  rw [List.append_nil, hnil, List.append_nil] at hdelete
  rw [uncoloured, hdelete, String.ofList_toList]

theorem map_uncoloured_eq {lines plain : List String} (h : List.Forall₂ Decorates lines plain)
    (hplain : ∀ line ∈ plain, escape ∉ line.toList) : lines.map uncoloured = plain := by
  induction h with
  | nil => rfl
  | cons hline _ ih =>
      obtain ⟨hfirst, hlater⟩ := List.forall_mem_cons.mp hplain
      rw [List.map_cons, hline.uncoloured_eq hfirst, ih hlater]

namespace Report

variable {report : Report}

def inColours (report : Report) : Report :=
  { report with colours := true }

def inPlain (report : Report) : Report :=
  { report with colours := false }

/-! ### Lines with a painted part -/

theorem decorates_paint (colour : Colour) (text : String) :
    Decorates (report.inColours.paint colour text) (report.inPlain.paint colour text) :=
  .painted colour text

theorem decorates_after (before : String) (colour : Colour) (text : String) :
    Decorates (before ++ report.inColours.paint colour text)
      (before ++ report.inPlain.paint colour text) :=
  .append (.same before) (decorates_paint colour text)

theorem decorates_passLine (path : String) (suite : Suite) :
    Decorates (report.inColours.passLine path suite) (report.inPlain.passLine path suite) := by
  unfold passLine
  repeat refine Decorates.append ?_ (.same _)
  exact decorates_after "  " .green "✓"

theorem decorates_violationLine (violation : Schema.Violation) :
    Decorates (report.inColours.violationLine violation) (report.inPlain.violationLine violation) := by
  unfold violationLine
  repeat refine Decorates.append ?_ (.same _)
  exact decorates_after "       - " .yellow violation.path.text

theorem decorates_showStep (step : Step) :
    Decorates (report.inColours.showStep step) (report.inPlain.showStep step) := by
  unfold showStep
  repeat refine Decorates.append ?_ (.same _)
  exact decorates_after (step.name ++ " [") .cyan step.plugin.name

/-! ### Lists of lines -/

theorem decorates_failureLines (path : String) (error : ParseError) :
    List.Forall₂ Decorates (report.inColours.failureLines path error)
      (report.inPlain.failureLines path error) := by
  have hheader : Decorates ("  " ++ report.inColours.paint .red "✗" ++ " " ++ path)
      ("  " ++ report.inPlain.paint .red "✗" ++ " " ++ path) :=
    .append (.append (decorates_after "  " .red "✗") (.same " ")) (.same path)
  refine .cons hheader ?_
  cases error with
  | rejected violations =>
      refine .cons (.same _) ?_
      rw [List.forall₂_map_left_iff, List.forall₂_map_right_iff, List.forall₂_same]
      exact fun violation _ => decorates_violationLine violation
  | unread | malformed | unbuilt => exact .cons (.same _) .nil

theorem decorates_testLines (test : Test) :
    List.Forall₂ Decorates (report.inColours.testLines test) (report.inPlain.testLines test) := by
  refine .cons (.same _) ?_
  rw [List.forall₂_iff_get]
  refine ⟨by simp, fun i hi hi' => ?_⟩
  simp only [List.get_eq_getElem, List.getElem_mapIdx]
  exact .append (.same _) (decorates_showStep _)

theorem decorates_outlineLines (suite : Suite) :
    List.Forall₂ Decorates (report.inColours.outlineLines suite)
      (report.inPlain.outlineLines suite) := by
  unfold outlineLines
  induction suite.tests with
  | nil => exact .nil
  | cons test tests ih => exact List.rel_append (decorates_testLines test) ih

theorem escape_notMem_summaryLine (passed failed : Nat) :
    escape ∉ (report.inPlain.summaryLine passed failed).toList := by
  have hnumber (n : Nat) : escape ∉ (toString n).toList :=
    fun hmem => absurd (Text.isDigit_of_mem_toString hmem) (by decide)
  change escape ∉ ("Results: " ++ toString passed ++ "/" ++ toString (passed + failed) ++
    " suite file(s) valid").toList
  simp only [String.toList_append, List.mem_append, not_or]
  exact ⟨⟨⟨⟨by decide, hnumber passed⟩, by decide⟩, hnumber (passed + failed)⟩, by decide⟩

/-- **Colours.** The lines of a report in colours are those of the report without colours once all
codes are deleted, unless a code could begin in one of these. -/
theorem uncoloured_lines (report : Report) (path : String) :
    (∀ suite, escape ∉ (report.inPlain.passLine path suite).toList →
      uncoloured (report.inColours.passLine path suite) = report.inPlain.passLine path suite)
    ∧ (∀ suite, (∀ line ∈ report.inPlain.outlineLines suite, escape ∉ line.toList) →
      (report.inColours.outlineLines suite).map uncoloured = report.inPlain.outlineLines suite)
    ∧ (∀ error, (∀ line ∈ report.inPlain.failureLines path error, escape ∉ line.toList) →
      (report.inColours.failureLines path error).map uncoloured
        = report.inPlain.failureLines path error)
    ∧ ∀ passed failed, uncoloured (report.inColours.summaryLine passed failed)
        = report.inPlain.summaryLine passed failed := by
  refine ⟨fun suite hplain => (decorates_passLine path suite).uncoloured_eq hplain,
    fun suite hplain => map_uncoloured_eq (decorates_outlineLines suite) hplain,
    fun error hplain => map_uncoloured_eq (decorates_failureLines path error) hplain, ?_⟩
  intro passed failed
  have hsummary : Decorates (report.inColours.summaryLine passed failed)
      (report.inPlain.summaryLine passed failed) :=
    decorates_paint _ _
  exact hsummary.uncoloured_eq (escape_notMem_summaryLine passed failed)

/-- Part of a code stands in the name of the suite, and a bracket in that of the step. -/
theorem uncoloured_lines_partial_codes :
    let step : Step := ⟨"s [32m", .http, ⟨[("url", .str "u")], List.pairwise_singleton _ _⟩, [], []⟩
    let suite : Suite := ⟨"[0m", none, [⟨"t", none, [step]⟩]⟩
    let error : ParseError := .rejected [⟨.root, "expected a mapping, found null"⟩]
    uncoloured (passLine ⟨true, 60, true⟩ "p" suite) = "  ✓ p ([0m: 1 test(s), 1 step(s))"
      ∧ (outlineLines ⟨true, 60, true⟩ suite).map uncoloured
        = ["      t", "        1. s [32m [http] url=\"u\""]
      ∧ (failureLines ⟨true, 60, true⟩ "p" error).map uncoloured
        = ["  ✗ p", "    └─ schema validation failed (1 violation(s))",
          "       - <root>: expected a mapping, found null"] := by
  intro step suite error
  obtain ⟨hpass, houtline, hfailure, -⟩ := uncoloured_lines ⟨true, 60, false⟩ "p"
  refine ⟨(hpass suite ?_).trans ?_, (houtline suite ?_).trans ?_, (hfailure error ?_).trans ?_⟩
  all_goals decide +kernel

end Report

end ApiSuite
