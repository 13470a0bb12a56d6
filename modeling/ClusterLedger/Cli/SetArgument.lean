import ClusterLedger.Document.Basic
import ClusterLedger.Json.Reader
import ClusterLedger.Text.Blank

/-!
# Settings given as arguments

An argument `key=value` gives a setting. A value that is JSON keeps its type, any other value is a
text, and the last argument for a key counts.
-/
namespace ClusterLedger

/-- What is wrong with an argument. -/
inductive SetArgument.Fault where
  | noValue (argument : String)
  | noKey (argument : String)
  deriving DecidableEq, Repr

/-- The fault in words. -/
def SetArgument.Fault.message : SetArgument.Fault → String
  | noValue argument => s!"Invalid --set '{argument}': expected KEY=VALUE"
  | noKey argument => s!"Invalid --set '{argument}': empty key"

namespace SetArgument

/-- The value that a text gives a setting. -/
def value (text : String) : Json :=
  (Json.read? text).getD (.string text)

/-- The key and the value of one argument. -/
def parse (argument : String) : Except Fault (String × Json) :=
  match Text.cut? '=' argument with
  | none => .error (.noValue argument)
  | some (key, text) =>
    if Text.trim key = "" then .error (.noKey argument) else .ok (Text.trim key, value text)

/-- The settings of a list of arguments. -/
def settings (arguments : List String) : Except Fault Settings :=
  (arguments.mapM parse).map Dict.ofList

end SetArgument

end ClusterLedger
