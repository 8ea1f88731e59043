import ApiSuite.Proofs.Suite.Rules

/-!
# Suites that are handed out

The build checks next to nothing of what it is given. That its suites are well formed all the same
is due to the check: what a part of a suite holds is what is written at its place, up to blanks around
names, and what is written there has met the rules of the grammar.
-/

namespace ApiSuite

open Schema

/-- A text that is not empty and has no blank at either end. -/
def Text.IsName (s : String) : Prop :=
  s ≠ "" ∧ Text.trim s = s

def Assertion.WellFormed : Assertion → Prop
  | .statusCode code => 100 ≤ code.toNat ∧ code.toNat ≤ 599
  | .jsonPath path _ => Text.NonBlank path
  | .header name _ => Text.NonBlank name
  | .bodyContains expected => Text.NonBlank expected

structure Capture.WellFormed (capture : Capture) : Prop where
  jsonPath : Text.NonBlank capture.jsonPath
  name : IsIdentifierText capture.name

structure Step.WellFormed (step : Step) : Prop where
  name : Text.IsName step.name
  assertions : ∀ assertion ∈ step.assertions, assertion.WellFormed
  captures : ∀ capture ∈ step.captures, capture.WellFormed

structure Test.WellFormed (test : Test) : Prop where
  name : Text.IsName test.name
  someSteps : test.steps ≠ []
  steps : ∀ step ∈ test.steps, step.WellFormed

structure Suite.WellFormed (suite : Suite) : Prop where
  name : Text.IsName suite.name
  someTests : suite.tests ≠ []
  tests : ∀ test ∈ suite.tests, test.WellFormed

/-- The mapping that assertion `k` of step `j` of test `i` is written as. -/
def Value.assertionAt? (document : Value) (i j k : Nat) : Option Entries := do
  let item ← (← document.stepAt? i j).itemAt? "assertions" k
  item.map?

/-! ### Fields and lists of parts -/

namespace Entries

variable {α : Type} {entries : Entries} {name text : String}

theorem HasText.property {property : String → Prop} (h : entries.HasText name text)
    (hform : entries.Has name fun value => value.IsText property) : property text := by
  obtain ⟨value, -, htext, s, hs, hproperty⟩ := h.and hform
  have hsame : s = text := Option.some.inj (hs.symm.trans htext)
  rwa [hsame] at hproperty

theorem HasTrimmed.isName (h : entries.HasTrimmed name text)
    (hform : entries.Has name Shape.nonBlankText.Admits) : Text.IsName text := by
  obtain ⟨written, hwritten, rfl⟩ := h
  have hnonBlank : Text.NonBlank written := hwritten.property hform
  refine ⟨?_, Text.trim_trim written⟩
  intro hempty
  rw [← Text.isEmpty_trim_iff, hempty] at hnonBlank
  exact Bool.noConfusion hnonBlank

variable {form : Value → Prop} {corresponds : Value → α → Prop} {good : α → Prop} {parts : List α}

theorem HasParts.forall_mem (h : entries.HasParts name corresponds parts)
    (hform : entries.MayHave name fun value => value.IsSequence form)
    (hgood : ∀ item part, form item → corresponds item part → good part) :
    ∀ part ∈ parts, good part := by
  intro part hpart
  obtain ⟨i, hi⟩ := List.mem_iff_getElem?.mp hpart
  have hparts := h.imp_of_form hform hgood
  obtain ⟨item, -, hitem⟩ := hparts.exists_itemAt hi
  exact hitem

theorem MayHaveParts.forall_mem (h : entries.MayHaveParts name corresponds parts)
    (hform : entries.MayHave name fun value => value.IsSequence form)
    (hgood : ∀ item part, form item → corresponds item part → good part) :
    ∀ part ∈ parts, good part := by
  obtain ⟨-, rfl⟩ | hparts := h
  · intro part hpart
    cases hpart
  · exact hparts.forall_mem hform hgood

theorem HasParts.ne_nil (h : entries.HasParts name corresponds parts)
    (hform : entries.Has name fun value => value.IsSomeSequence form) : parts ≠ [] := by
  obtain ⟨value, -, ⟨items, hseq, hparts⟩, items', hseq', hne, -⟩ := h.and hform
  obtain rfl : items = items' := Option.some.inj (hseq.symm.trans hseq')
  rintro rfl
  exact hne (List.forall₂_nil_right_iff.mp hparts)

theorem MayHaveParts.exists_itemAt {i : Nat} {part : α}
    (h : entries.MayHaveParts name corresponds parts) (hpart : parts[i]? = some part) :
    ∃ item, entries.itemAt? name i = some item ∧ corresponds item part := by
  obtain ⟨-, rfl⟩ | hparts := h
  · cases hpart
  · exact hparts.exists_itemAt hpart

end Entries

/-! ### Parts of a suite -/

theorem Assertion.Mirrors.wellFormed {assertion : Assertion} {entries : Entries}
    (h : assertion.Mirrors entries) (hform : IsAssertion entries) : assertion.WellFormed := by
  obtain ⟨kind, htype, hpayload⟩ := hform
  -- The kind that the grammar goes by is that of the assertion, so a payload meets its own rules.
  obtain rfl : kind = assertion.kind := AssertionKind.name_injective (htype.unique h.type)
  have hpart := h.payload
  cases assertion with
  | statusCode code =>
      cases hpayload with
      | statusCode expected =>
          obtain ⟨value, -, hcode, authored, hauthored, hlow, hhigh⟩ := hpart.and expected
          have hsame : authored = code.toNat := Option.some.inj (hauthored.symm.trans hcode)
          rw [hsame] at hlow hhigh
          exact ⟨hlow, hhigh⟩
  | jsonPath path expected =>
      cases hpayload with
      | jsonPath hpath _ => exact hpart.1.property hpath
  | header name expected =>
      cases hpayload with
      | header hname _ => exact hpart.1.property hname
  | bodyContains expected =>
      cases hpayload with
      | bodyContains hexpected => exact hpart.property hexpected

theorem Capture.Mirrors.wellFormed {capture : Capture} {entries : Entries}
    (h : capture.Mirrors entries) (hform : IsCapture entries) : capture.WellFormed :=
  ⟨h.jsonPath.property hform.jsonPath, h.name.property hform.name⟩

theorem Step.Mirrors.wellFormed {step : Step} {entries : Entries} (h : step.Mirrors entries)
    (hform : IsStep entries) : step.WellFormed := by
  refine ⟨h.name.isName hform.name, ?_, ?_⟩
  · refine h.assertions.forall_mem hform.assertions ?_
    intro item assertion hitem hmirrors
    obtain ⟨fields, -, hisAssertion, hassertion⟩ := hitem.and hmirrors
    exact hassertion.wellFormed hisAssertion
  · refine h.captures.forall_mem hform.captures ?_
    intro item capture hitem hmirrors
    obtain ⟨fields, -, hisCapture, hcapture⟩ := hitem.and hmirrors
    exact hcapture.wellFormed hisCapture

theorem Test.Mirrors.wellFormed {test : Test} {entries : Entries} (h : test.Mirrors entries)
    (hform : IsTest entries) : test.WellFormed := by
  refine ⟨h.name.isName hform.name, h.steps.ne_nil hform.steps, ?_⟩
  refine h.steps.forall_mem (hform.steps.mayHave Value.IsSomeSequence.isSequence) ?_
  intro item step hitem hmirrors
  obtain ⟨fields, -, hisStep, hstep⟩ := hitem.and hmirrors
  exact hstep.wellFormed hisStep

theorem Suite.Mirrors.wellFormed {suite : Suite} {entries : Entries} (h : suite.Mirrors entries)
    (hform : IsSuite entries) : suite.WellFormed := by
  refine ⟨h.name.isName hform.name, h.tests.ne_nil hform.tests, ?_⟩
  refine h.tests.forall_mem (hform.tests.mayHave Value.IsSomeSequence.isSequence) ?_
  intro item test hitem hmirrors
  obtain ⟨fields, -, hisTest, htest⟩ := hitem.and hmirrors
  exact htest.wellFormed hisTest

theorem Suite.exists_statusCodeAt {suite : Suite} {document : Value} {i j k : Nat} {step : Step}
    {code : UInt16} (hform : document.IsMapping IsSuite) (h : document.IsMapping suite.Mirrors)
    (hstep : suite.stepAt? i j = some step)
    (hcode : step.assertions[k]? = some (.statusCode code)) :
    ∃ fields, document.assertionAt? i j k = some fields
      ∧ fields.Has "expected" fun value => value.nat? = some code.toNat := by
  obtain ⟨entries, hentries, -, hmirrors⟩ := Suite.exists_stepAt hform h hstep
  obtain ⟨item, hitem, fields, hfields, hassertion⟩ := hmirrors.assertions.exists_itemAt hcode
  refine ⟨fields, ?_, hassertion.payload⟩
  simp [Value.assertionAt?, hentries, hitem, hfields]

/-- **Suites are well formed.** The suite of an accepted document has trimmed names that are not
empty, tests and steps, and assertions and captures that obey the rules of their kinds; and no status
code was changed when it was narrowed. -/
theorem build_wellFormed {document : Value} (h : Schema.validate document = .ok ()) :
    ∃ suite, Suite.build document = .ok suite ∧ suite.WellFormed
      ∧ ∀ i j k step code, suite.stepAt? i j = some step →
        step.assertions[k]? = some (.statusCode code) →
          ∃ fields, document.assertionAt? i j k = some fields
            ∧ fields.Has "expected" fun value => value.nat? = some code.toNat := by
  obtain ⟨suite, hbuild⟩ := Suite.build_of_validate_eq_ok h
  rw [validate_eq_ok_iff_clean, clean_checkSuite_iff] at h
  have hmirrors := Suite.mirrors_of_build h hbuild
  obtain ⟨entries, -, hisSuite, hsuite⟩ := h.and hmirrors
  refine ⟨suite, hbuild, hsuite.wellFormed hisSuite, ?_⟩
  intro i j k step code hstep hcode
  exact Suite.exists_statusCodeAt h hmirrors hstep hcode

theorem build_wellFormed_tagged_code :
    let expectation : Value :=
      .map [(.str "type", .str "status_code"), (.str "expected", .tagged "k" (.int 599))]
    let capture : Value := .map [(.str "json_path", .str " .id"), (.str "as", .str "_id2")]
    let settings : Value := .map [(.str "duration", .str "5s")]
    let step : Value := .map [(.str "name", .str " s "), (.str "plugin", .str "delay"),
      (.str "config", settings), (.str "assertions", .seq [expectation]),
      (.str "save", .seq [capture])]
    let test : Value := .map [(.str "name", .str "t\n"), (.str "steps", .seq [step])]
    let document : Value := .map [(.str "name", .str "suite"), (.str "tests", .seq [test])]
    Schema.validate document = .ok () ∧
      ∃ suite, Suite.build document = .ok suite ∧ suite.WellFormed
        ∧ ∀ i j k step code, suite.stepAt? i j = some step →
          step.assertions[k]? = some (.statusCode code) →
            ∃ fields, document.assertionAt? i j k = some fields
              ∧ fields.Has "expected" fun value => value.nat? = some code.toNat := by
  intro expectation capture settings step test document
  have hvalid : Schema.validate document = .ok () := by decide +kernel
  exact ⟨hvalid, build_wellFormed hvalid⟩

end ApiSuite
