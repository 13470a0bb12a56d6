import ClusterLedger.Cli.Command
import ClusterLedger.Text.Affix
import ClusterLedger.Text.Digits

/-!
# Arguments

Words of a command line are options with a value, the flag for more logging, or plain words. Every
level, that of the program and that of each command, takes its own options and the common ones. An
option may be given once on a level, settings as often as wanted.
-/
namespace ClusterLedger.Cli

/-- The words of one level, sorted. -/
structure Level where
  values : List (String × String) := []
  verbose : Bool := false
  words : List String := []
  deriving DecidableEq, Repr

namespace Level

/-- The values of an option, in order. -/
def all (l : Level) (option : String) : List String :=
  (l.values.filter (·.1 = option)).map (·.2)

/-- The value of an option. -/
def value? (l : Level) (option : String) : Option String :=
  (l.all option).head?

/-- Adds the value of an option; only settings may have several. -/
def addValue? (l : Level) (option value : String) : Option Level :=
  if option ≠ "set" ∧ (l.value? option).isSome then none
  else some { l with values := l.values ++ [(option, value)] }

/-- Adds the flag for more logging, once. -/
def addVerbose? (l : Level) : Option Level :=
  if l.verbose then none else some { l with verbose := true }

/-- Adds a plain word. -/
def addWord (l : Level) (word : String) : Level :=
  { l with words := l.words ++ [word] }

end Level

/-- Whether a word can be the value of an option before it. -/
def isValue (word : String) : Bool :=
  word = "-" ∨ (Text.after? "-" word).isNone

/-- The options that every level takes. -/
def commonOptions : List String := ["config"]

/-- Sorts the words of a level with the given options. When the level ends at the first plain word,
that word and all behind it are left. -/
def Level.scan? (options : List String) (endsAtWord : Bool) (l : Level) :
    List String → Option (Level × List String)
  | [] => some (l, [])
  | word :: rest =>
    if word = "--" then
      if endsAtWord then none else some (rest.foldl Level.addWord l, [])
    else match Text.after? "--" word with
      | some body => match Text.cut? '=' body with
        | some (option, value) =>
          if option ∈ options then do
            (← l.addValue? option value).scan? options endsAtWord rest
          else none
        | none =>
          if body = "verbose" then do (← l.addVerbose?).scan? options endsAtWord rest
          else if body ∈ options then
            match rest with
            | value :: rest =>
              if isValue value then do
                (← l.addValue? body value).scan? options endsAtWord rest
              else none
            | [] => none
          else none
      | none =>
        if word = "-v" then do (← l.addVerbose?).scan? options endsAtWord rest
        else if ¬isValue word then none
        else if endsAtWord then some (l, word :: rest)
        else (l.addWord word).scan? options endsAtWord rest

/-- The level of a command with the given options. -/
def Level.ofCommand? (options : List String) (words : List String) : Option Level :=
  (Level.scan? (commonOptions ++ options) false {} words).map (·.1)

/-- The level of the program or of a group of commands, the command word, and what is behind it. -/
def Level.ofGroup? (words : List String) : Option (Level × String × List String) :=
  match Level.scan? commonOptions true {} words with
  | some (l, word :: rest) => some (l, word, rest)
  | _ => none

/-- A provider by its slug. -/
def provider? (text : String) : Option Provider :=
  Provider.ofSlug? text

/-- A number of nodes; one without any text. -/
def count? : Option String → Option Nat
  | none => some 1
  | some text => Text.unsigned? Text.wordLimit text.toList

/-- A provider that may be left out. -/
def optionalProvider? : Option String → Option (Option Provider)
  | none => some none
  | some text => (provider? text).map some

/-- The commands that create something. -/
def create? (kind : String) (words : List String) : Option (Level × Command) := do
  match kind with
  | "manager" =>
    let l ← Level.ofCommand? ["name", "provider", "set"] words
    if l.words ≠ [] then none
    return (l, .createManager (← l.value? "name") (← provider? (← l.value? "provider"))
      (l.all "set"))
  | "cluster" =>
    let l ← Level.ofCommand? ["manager", "name", "provider", "set"] words
    if l.words ≠ [] then none
    return (l, .createCluster (← l.value? "manager") (← l.value? "name")
      (← provider? (← l.value? "provider")) (l.all "set"))
  | "node" =>
    let l ← Level.ofCommand? ["manager", "cluster", "hostname", "count", "provider", "set"] words
    if l.words ≠ [] then none
    return (l, .createNodes (← l.value? "manager") (← l.value? "cluster") (← l.value? "hostname")
      (← count? (l.value? "count")) (← optionalProvider? (l.value? "provider")) (l.all "set"))
  | _ => none

/-- The commands that destroy something. -/
def destroy? (kind : String) (words : List String) : Option (Level × Command) := do
  match kind with
  | "manager" =>
    let l ← Level.ofCommand? [] words
    match l.words with
    | [manager] => return (l, .destroyManager manager)
    | _ => none
  | "cluster" =>
    let l ← Level.ofCommand? ["manager"] words
    match l.words with
    | [name] => return (l, .destroyCluster (← l.value? "manager") name)
    | _ => none
  | "node" =>
    let l ← Level.ofCommand? ["manager", "cluster"] words
    if l.words = [] then none
    return (l, .destroyNodes (← l.value? "manager") (← l.value? "cluster") l.words)
  | _ => none

/-- A command by its word, with the levels below it, the innermost first. -/
def command? (word : String) (rest : List String) : Option (List Level × Command) := do
  match word with
  | "create" =>
    let (group, kind, rest) ← Level.ofGroup? rest
    let (l, command) ← create? kind rest
    return ([l, group], command)
  | "destroy" =>
    let (group, kind, rest) ← Level.ofGroup? rest
    let (l, command) ← destroy? kind rest
    return ([l, group], command)
  | "get" =>
    let l ← Level.ofCommand? [] rest
    match l.words with
    | [manager] => return ([l], .get manager none)
    | [manager, path] => return ([l], .get manager (some path))
    | _ => none
  | "list" =>
    let l ← Level.ofCommand? [] rest
    if l.words = [] then return ([l], .list) else none
  | "version" =>
    let l ← Level.ofCommand? [] rest
    if l.words = [] then return ([l], .version) else none
  | _ => none

/-- The command line of some arguments, or `none` when they are refused. Of the configuration files
named on different levels the innermost counts; its path is not empty. -/
def CommandLine.parse? (arguments : List String) : Option CommandLine := do
  let (top, word, rest) ← Level.ofGroup? arguments
  let (levels, command) ← command? word rest
  let files := (levels ++ [top]).filterMap (·.value? "config")
  if "" ∈ files then none
  return ⟨files.head?, command⟩

end ClusterLedger.Cli
