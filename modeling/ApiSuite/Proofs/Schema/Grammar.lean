import ApiSuite.Proofs.Schema.Shape
import ApiSuite.Schema.Rules

/-!
# The grammar of suites

Which document values are suites, said without the check. Entries under keys that are not named here
are of no account.
-/

namespace ApiSuite.Schema

/-- The settings of a step with this plugin. -/
inductive IsSettings (entries : Entries) : Plugin → Prop where
  | delay (duration : entries.Has "duration" Shape.duration.Admits) : IsSettings entries .delay
  | http (url : entries.Has "url" Shape.nonBlankText.Admits)
      (method : entries.MayHave "method" Shape.httpMethod.Admits)
      (headers : entries.MayHave "headers" Shape.scalarMap.Admits)
      (body : entries.MayHave "body" Shape.body.Admits) : IsSettings entries .http

/-- What an assertion of this kind has besides its type. Only the value expected at a path may be
null. -/
inductive IsPayload (entries : Entries) : AssertionKind → Prop where
  | statusCode (expected : entries.Has "expected" Shape.statusCode.Admits) :
      IsPayload entries .statusCode
  | jsonPath (path : entries.Has "path" Shape.nonBlankText.Admits)
      (expected : ∃ value, entries.get? "expected" = some value) : IsPayload entries .jsonPath
  | header (name : entries.Has "name" Shape.nonBlankText.Admits)
      (expected : entries.Has "expected" Shape.text.Admits) : IsPayload entries .header
  | bodyContains (expected : entries.Has "expected" Shape.nonBlankText.Admits) :
      IsPayload entries .bodyContains

def IsAssertion (entries : Entries) : Prop :=
  ∃ kind : AssertionKind, entries.HasText "type" kind.name ∧ IsPayload entries kind

structure IsCapture (entries : Entries) : Prop where
  jsonPath : entries.Has "json_path" Shape.nonBlankText.Admits
  name : entries.Has "as" Shape.identifier.Admits

/-- Settings whose keys are all strings and that have what the plugin asks for. -/
def IsConfig (plugin : Plugin) (entries : Entries) : Prop :=
  (∀ entry ∈ entries, ∃ key, entry.1.str? = some key) ∧ IsSettings entries plugin

structure IsStep (entries : Entries) : Prop where
  name : entries.Has "name" Shape.nonBlankText.Admits
  action : ∃ plugin : Plugin, entries.HasText "plugin" plugin.name
    ∧ entries.Has "config" fun value => value.IsMapping (IsConfig plugin)
  assertions : entries.MayHave "assertions" fun value =>
    value.IsSequence fun item => item.IsMapping IsAssertion
  captures : entries.MayHave "save" fun value =>
    value.IsSequence fun item => item.IsMapping IsCapture

structure IsTest (entries : Entries) : Prop where
  name : entries.Has "name" Shape.nonBlankText.Admits
  description : entries.MayHave "description" Shape.text.Admits
  steps : entries.Has "steps" fun value =>
    value.IsSomeSequence fun item => item.IsMapping IsStep

structure IsSuite (entries : Entries) : Prop where
  name : entries.Has "name" Shape.nonBlankText.Admits
  description : entries.MayHave "description" Shape.text.Admits
  tests : entries.Has "tests" fun value =>
    value.IsSomeSequence fun item => item.IsMapping IsTest

end ApiSuite.Schema
