import ApiSuite.Discovery
import ApiSuite.Json.Encode
import ApiSuite.Settings.Load
import ApiSuite.Text.Page

/-!
Commands that cannot do their work.
-/

namespace ApiSuite.Command

inductive Failure where
  | settings (failure : Settings.Failure)
  | discovery (failure : Discovery.Failure)
  | unwritable (fault : EncodeFault)

namespace Failure

def messages : Failure → List String
  | .settings failure => failure.messages
  | .discovery failure => failure.messages
  | .unwritable fault => ["Failed to serialize suite as JSON", fault.message]

def causeLines : List String → List String
  | [cause] => [Text.labelled "    " cause]
  | causes => causes.mapIdx fun index cause => Text.labelled ("    " ++ toString index ++ ": ") cause

def lines (failure : Failure) : List String :=
  match failure.messages with
  | [] => []
  | [message] => ["Error: " ++ message]
  | message :: causes => ["Error: " ++ message, "", "Caused by:"] ++ causeLines causes

end Failure

end ApiSuite.Command
