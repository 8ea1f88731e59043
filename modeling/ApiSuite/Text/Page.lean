/-!
Lines of output.
-/

namespace ApiSuite.Text

def page (lines : List String) : String :=
  String.join (lines.map (· ++ "\n"))

/-- A text after a label, its further lines being indented as far as the label is long. -/
def labelled (label text : String) : String :=
  let blanks := List.replicate label.length ' '
  label ++ String.ofList (text.toList.flatMap fun c => if c = '\n' then '\n' :: blanks else [c])

end ApiSuite.Text
