import ClusterLedger.Module.Provider

/-!
# Commands

What a user can ask for on the command line.
-/
namespace ClusterLedger.Cli

/-- A command; settings are given as arguments `KEY=VALUE`. -/
inductive Command where
  | createManager (name : String) (provider : Provider) (settings : List String)
  | createCluster (manager name : String) (provider : Provider) (settings : List String)
  | createNodes (manager cluster hostname : String) (count : Nat) (provider : Option Provider)
      (settings : List String)
  | destroyManager (manager : String)
  | destroyCluster (manager name : String)
  | destroyNodes (manager cluster : String) (hostnames : List String)
  | get (manager : String) (path : Option String)
  | list
  | version
  deriving DecidableEq, Repr

/-- A command line: the configuration file that it names, if any, and the command. -/
structure CommandLine where
  configuration : Option String
  command : Command
  deriving DecidableEq, Repr

end ClusterLedger.Cli
