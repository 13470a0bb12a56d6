import ClusterLedger.Text.Affix

/-!
# Paths as texts

A path is kept as it was given, and shown so. Only joining looks at it.
-/
namespace ClusterLedger.Path

/-- The path of a name below a path. -/
def join (path name : String) : String :=
  if path = "" ∨ (Text.before? "/" path).isSome then path ++ name else path ++ "/" ++ name

/-- Whether a path starts at the root. -/
def isAbsolute (path : String) : Bool :=
  (Text.after? "/" path).isSome

/-- The names on the way to a path, which may start in a folder. -/
def way (folder path : String) : List String :=
  (if isAbsolute path then [] else Text.segments '/' folder) ++ Text.segments '/' path

end ClusterLedger.Path
