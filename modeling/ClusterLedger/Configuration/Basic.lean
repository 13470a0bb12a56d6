import ClusterLedger.Dict

/-!
# Configuration

What a user can say about where states are kept and how the tool is run. Whatever is not said has
the default of whoever needs it.
-/
namespace ClusterLedger

/-- Where states are kept. -/
inductive Configuration.Storage where
  | folder (path : String)
  | remote (url path : String) (token : Option String)
  deriving DecidableEq, Repr

/-- A configuration. -/
structure Configuration where
  terraformBinary : Option String := none
  sourceUrl : Option String := none
  storage : Configuration.Storage
  lockStaleAfter : Option Nat := none
  terraformVariables : Dict String := {}
  deriving DecidableEq, Repr

end ClusterLedger
