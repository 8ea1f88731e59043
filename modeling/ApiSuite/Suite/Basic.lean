import ApiSuite.Suite.Config

/-!
Test suites as they are handed to a caller: tests made of steps, each step naming a plugin, its
settings, the assertions on its result and the values captured from it.
-/

namespace ApiSuite

inductive Plugin where
  | delay
  | http
  deriving DecidableEq, Repr

def Plugin.all : List Plugin :=
  [.delay, .http]

def Plugin.name : Plugin → String
  | .delay => "delay"
  | .http => "http"

def Plugin.ofName? (name : String) : Option Plugin :=
  all.find? (·.name == name)

def httpMethods : List String :=
  ["GET", "POST", "PUT", "PATCH", "DELETE", "HEAD", "OPTIONS"]

inductive AssertionKind where
  | statusCode
  | jsonPath
  | header
  | bodyContains
  deriving DecidableEq, Repr

def AssertionKind.all : List AssertionKind :=
  [.statusCode, .jsonPath, .header, .bodyContains]

def AssertionKind.name : AssertionKind → String
  | .statusCode => "status_code"
  | .jsonPath => "json_path"
  | .header => "header"
  | .bodyContains => "body_contains"

def AssertionKind.ofName? (name : String) : Option AssertionKind :=
  all.find? (·.name == name)

inductive Assertion where
  | statusCode (expected : UInt16)
  | jsonPath (path : String) (expected : Value)
  | header (name : String) (expected : String)
  | bodyContains (expected : String)

def Assertion.kind : Assertion → AssertionKind
  | .statusCode _ => .statusCode
  | .jsonPath _ _ => .jsonPath
  | .header _ _ => .header
  | .bodyContains _ => .bodyContains

/-- Binds what a path finds in the result of a step to a variable of the later steps. -/
structure Capture where
  jsonPath : String
  name : String
  deriving DecidableEq, Repr

structure Step where
  name : String
  plugin : Plugin
  config : Config
  assertions : List Assertion
  captures : List Capture

structure Test where
  name : String
  description : Option String
  steps : List Step

structure Suite where
  name : String
  description : Option String
  tests : List Test

def Suite.stepCount (suite : Suite) : Nat :=
  (suite.tests.flatMap (·.steps)).length

end ApiSuite
