import ApiSuite.Files.Path
import ApiSuite.Glob.Braces
import ApiSuite.Glob.Pattern

/-!
Matchers for the names of suite files.
-/

namespace ApiSuite.Glob

abbrev Matcher := List Pattern

namespace Matcher

/-- The matcher for a pattern with groups, or the first error in what it stands for. -/
def ofText? (text : String) : Except Error Matcher :=
  (expand text.toList).mapM (Pattern.read none 0)

def fits (matcher : Matcher) (path : String) : Bool :=
  (Files.fileName? path).any fun name => matcher.any (·.fits name.toList)

end Matcher

end ApiSuite.Glob
