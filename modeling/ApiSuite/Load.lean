import ApiSuite.Files.System
import ApiSuite.Parse

/-!
Suites in files.
-/

namespace ApiSuite

def load [Monad m] (files : Files.System m) (path : String) : m (Except ParseError Suite) := do
  return (← files.read path).mapError .unread >>= parse

end ApiSuite
