import ApiSuite.Schema.Defect
import ApiSuite.Schema.Violation

/-!
What a check finds in a part of a document, with paths that start at that part: the defects, and
the fields that the format does not know and that are ignored.
-/

namespace ApiSuite.Schema

structure Findings where
  defects : List (FieldPath × Defect)
  unknown : List FieldPath

namespace Findings

def none : Findings :=
  ⟨[], []⟩

def here (defect : Defect) : Findings :=
  ⟨[(.root, defect)], []⟩

def append (first second : Findings) : Findings :=
  ⟨first.defects ++ second.defects, first.unknown ++ second.unknown⟩

instance : Append Findings :=
  ⟨append⟩

def join (parts : List Findings) : Findings :=
  parts.foldr append none

/-- The findings in a part that lies at `base`. -/
def under (base : FieldPath) (findings : Findings) : Findings :=
  ⟨findings.defects.map fun (path, defect) => (base.under path, defect),
    findings.unknown.map base.under⟩

def atKey (name : String) (findings : Findings) : Findings :=
  findings.under (FieldPath.root.key name)

def ofItems (check : Value → Findings) (items : List Value) : Findings :=
  join (items.mapIdx fun i item => (check item).under (FieldPath.root.index i))

def violations (findings : Findings) : List Violation :=
  findings.defects.map fun (path, defect) => ⟨path, defect.message⟩

end Findings

end ApiSuite.Schema
