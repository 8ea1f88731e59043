import ApiSuite.Schema.Findings
import ApiSuite.Schema.Rules

/-!
The check of a whole document. Every part is checked on its own and reports with paths that start
at it, so a defect in one part never hides or changes those of another.
-/

namespace ApiSuite.Schema

def checkMapping (value : Value) (check : Entries → Findings) : Findings :=
  match value.map? with
  | some entries => check entries
  | none => .here (.mismatch .mapping value)

def checkField (entries : Entries) (rule : FieldRule) : Findings :=
  .atKey rule.name <|
    match rule.value? entries with
    | none => if rule.required then .here (.missing rule.name) else .none
    | some value =>
      match rule.shape.check value with
      | .ok () => .none
      | .error defect => .here defect

def checkFields (rules : List FieldRule) (entries : Entries) : Findings :=
  .join (rules.map (checkField entries))

/-- The text keys that are not among `known`, in the order of the mapping. -/
def unknownKeys (known : List String) (entries : Entries) : Findings :=
  ⟨[], ((entries.filterMap fun entry => entry.1.str?).filter fun key => !known.contains key).map
    FieldPath.root.key⟩

def checkSequence (value : Value) (check : Value → Findings) : Findings :=
  match value.seq? with
  | some items => .ofItems check items
  | none => .here (.mismatch .sequence value)

def checkSomeItems (name : String) (check : Value → Findings) (entries : Entries) : Findings :=
  .atKey name <|
    match entries.field? name with
    | none => .here (.missing name)
    | some value =>
      match value.seq? with
      | some [] => .here .noItems
      | _ => checkSequence value check

def checkAnyItems (name : String) (check : Value → Findings) (entries : Entries) : Findings :=
  .atKey name <|
    match entries.field? name with
    | none => .none
    | some value => checkSequence value check

def choice (name : String) (ofName? : String → Option α) (unknown : String → Defect)
    (entries : Entries) : Except Defect α :=
  match entries.field? name with
  | none => .error (.missing name)
  | some value => do
    let text ← needText value
    match ofName? text with
    | some chosen => .ok chosen
    | none => .error (unknown text)

def chosenPlugin (entries : Entries) : Except Defect Plugin :=
  choice "plugin" Plugin.ofName? .unknownPlugin entries

def chosenAssertion (entries : Entries) : Except Defect AssertionKind :=
  choice "type" AssertionKind.ofName? .unknownAssertion entries

def checkKeys (entries : Entries) : Findings :=
  ⟨(entries.filter fun entry => entry.1.str?.isNone).map fun entry =>
    (.root, .keyNotText entry.1), []⟩

/-- The settings of a step. Only those of a known plugin have rules. -/
def checkConfig (plugin : Except Defect Plugin) (entries : Entries) : Findings :=
  .atKey "config" <|
    match entries.field? "config" with
    | none => .here (.missing "config")
    | some value =>
      checkMapping value fun settings =>
        checkKeys settings ++
          match plugin with
          | .ok plugin =>
            checkFields (configRules plugin) settings ++ unknownKeys (configKeys plugin) settings
          | .error _ => .none

def checkAssertion (value : Value) : Findings :=
  checkMapping value fun entries =>
    match chosenAssertion entries with
    | .error defect => .atKey "type" (.here defect)
    | .ok kind =>
      checkFields (assertionRules kind) entries ++ unknownKeys (assertionKeys kind) entries

def checkCapture (value : Value) : Findings :=
  checkMapping value fun entries =>
    checkFields captureRules entries ++ unknownKeys captureKeys entries

def checkPlugin (plugin : Except Defect Plugin) : Findings :=
  match plugin with
  | .ok _ => .none
  | .error defect => .atKey "plugin" (.here defect)

def checkStep (value : Value) : Findings :=
  checkMapping value fun entries =>
    checkField entries nameRule ++
    unknownKeys stepKeys entries ++
    checkPlugin (chosenPlugin entries) ++
    checkConfig (chosenPlugin entries) entries ++
    checkAnyItems "assertions" checkAssertion entries ++
    checkAnyItems "save" checkCapture entries

def checkTest (value : Value) : Findings :=
  checkMapping value fun entries =>
    checkField entries nameRule ++
    checkField entries descriptionRule ++
    unknownKeys testKeys entries ++
    checkSomeItems "steps" checkStep entries

def checkSuite (document : Value) : Findings :=
  checkMapping document fun entries =>
    checkField entries nameRule ++
    checkField entries descriptionRule ++
    unknownKeys suiteKeys entries ++
    checkSomeItems "tests" checkTest entries

/-- The broken rules of a document, in the order of the format's fields. -/
def violations (document : Value) : List Violation :=
  (checkSuite document).violations

def unknownFields (document : Value) : List FieldPath :=
  (checkSuite document).unknown

def validate (document : Value) : Except (List Violation) Unit :=
  match violations document with
  | [] => .ok ()
  | broken => .error broken

end ApiSuite.Schema
