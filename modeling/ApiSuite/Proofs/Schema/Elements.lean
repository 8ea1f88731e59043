import ApiSuite.Proofs.Places
import ApiSuite.Schema.Check

/-!
# The elements of a document

A suite holds tests, a test steps, and a step assertions and captures. Each kind of element has a
check of its own and stands at places of its own, whatever the document.
-/

namespace ApiSuite.Schema

inductive Element where
  | suite
  | test
  | step
  | assertion
  | capture

/-- Elements of the one kind hold a sequence of elements of the other under this key. -/
inductive Element.Holds : Element → String → Element → Prop where
  | tests : Holds .suite "tests" .test
  | steps : Holds .test "steps" .step
  | assertions : Holds .step "assertions" .assertion
  | captures : Holds .step "save" .capture

/-- The places of the elements of each kind. -/
inductive Place : Element → FieldPath → Prop where
  | root : Place .suite .root
  | item {whole element : Element} {name : String} {path : FieldPath}
      (hholds : whole.Holds name element) (hplace : Place whole path) (i : Nat) :
      Place element ((path.key name).index i)

def Element.check : Element → Value → Findings
  | .suite => checkSuite
  | .test => checkTest
  | .step => checkStep
  | .assertion => checkAssertion
  | .capture => checkCapture

/-- The fields that every element of a kind may have, other than those that hold elements or decide
what else it may have. -/
def Element.rules : Element → List FieldRule
  | .suite | .test => [nameRule, descriptionRule]
  | .step => [nameRule]
  | .assertion => []
  | .capture => captureRules

/-! ### One value that may be null -/

theorem Element.name_ne_expected {element : Element} :
    ∀ rule ∈ element.rules, rule.name ≠ "expected" := by
  cases element <;> decide

theorem Element.Holds.name_ne_expected {whole element : Element} {name : String}
    (h : whole.Holds name element) : name ≠ "expected" := by
  cases h <;> decide

theorem name_ne_expected_of_mem_configRules {plugin : Plugin} :
    ∀ rule ∈ configRules plugin, rule.name ≠ "expected" := by
  cases plugin <;> decide

theorem nullable_of_mem_assertionRules : ∀ rule ∈ assertionRules .jsonPath,
    rule.name = "expected" → rule.nullable = true := by
  decide

end ApiSuite.Schema
