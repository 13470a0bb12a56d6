import ClusterLedger.Text.Affix
import ClusterLedger.Text.Digits

/-!
# YAML values

A value is kept as it is written: a scalar is its text and its style, a mapping lists its entries
in order, repeated keys included, and each value has its tag if one is written. What a scalar stands
for is said here too.
-/
namespace ClusterLedger

/-- How a scalar is written: without marks, in quotes or folded, or as a block that keeps its
lines. -/
inductive Yaml.Style where
  | plain
  | quoted
  | literal
  deriving DecidableEq, Repr

/-- A YAML document. A tag is written out, and begins with an exclamation mark if it is one of an
application. -/
inductive Yaml where
  | scalar (tag : Option String) (style : Yaml.Style) (text : String)
  | sequence (tag : Option String) (items : List Yaml)
  | mapping (tag : Option String) (entries : List (Yaml × Yaml))
  deriving Repr, Inhabited

namespace Yaml

/-- A reader of YAML: the only document in a text, with each alias replaced by what it stands for.
`none` is a text that is refused. -/
abbrev Reader := String → Option Yaml

/-- What stands where nothing is written. -/
def nothing : Yaml :=
  scalar none .plain ""

/-- Whether nothing is written. -/
def isNothing : Yaml → Bool
  | scalar _ .plain s => s = ""
  | _ => false

/-- The text of a scalar, in whatever way it is written. -/
def text? : Yaml → Option String
  | scalar _ _ s => some s
  | _ => none

mutual
/-- How many collections stand inside of each other. -/
def depth : Yaml → Nat
  | scalar _ _ _ => 0
  | sequence _ items => depthOfItems items + 1
  | mapping _ entries => depthOfEntries entries + 1

def depthOfItems : List Yaml → Nat
  | [] => 0
  | v :: rest => max v.depth (depthOfItems rest)

def depthOfEntries : List (Yaml × Yaml) → Nat
  | [] => 0
  | (k, v) :: rest => max (max k.depth v.depth) (depthOfEntries rest)
end

/-! ## Plain scalars -/

/-- Words for a missing value. -/
def isNullWord (s : String) : Bool :=
  s = "" ∨ s = "~" ∨ s = "null" ∨ s = "Null" ∨ s = "NULL"

/-- Words for a truth value. -/
def isBoolWord (s : String) : Bool :=
  ["true", "True", "TRUE", "false", "False", "FALSE"].contains s

/-- The value of a digit in a base up to sixteen. -/
def digitIn? (base : Nat) (c : Char) : Option Nat :=
  let n := if c.isDigit then c.toNat - '0'.toNat
    else if 'a' ≤ c ∧ c ≤ 'f' then c.toNat - 'a'.toNat + 10
    else if 'A' ≤ c ∧ c ≤ 'F' then c.toNat - 'A'.toNat + 10
    else base
  if n < base then some n else none

/-- The number that a nonempty run of digits spells in a base. -/
def natIn? (base : Nat) : List Char → Option Nat
  | [] => none
  | cs => cs.foldlM (fun n c => (digitIn? base c).map (base * n + ·)) 0

/-- Digits with a zero in front are no number. -/
def hasLeadingZero (cs : List Char) : Bool :=
  match cs with
  | '0' :: c :: rest => (c :: rest).all Char.isDigit
  | _ => false

/-- A number without its sign: decimal, or in base sixteen, eight or two behind `0x`, `0o`, `0b`. -/
def magnitude? (cs : List Char) : Option Nat :=
  match cs with
  | '0' :: 'x' :: rest => natIn? 16 rest
  | '0' :: 'o' :: rest => natIn? 8 rest
  | '0' :: 'b' :: rest => natIn? 2 rest
  | _ => if hasLeadingZero cs then none else natIn? 10 cs

/-- The natural number below a limit that a plain scalar spells; a sign `+` is allowed. -/
def unsigned? (limit : Nat) (s : String) : Option Nat :=
  (match s.toList with
  | '+' :: cs => magnitude? cs
  | cs => magnitude? cs).filter (· < limit)

/-- Whether a plain scalar spells an integer from the given bounds. -/
def isIntegerWithin (least greatest : Nat) (s : String) : Bool :=
  match s.toList with
  | '-' :: cs => (magnitude? cs).any (· ≤ least)
  | _ => (unsigned? (greatest + 1) s).isSome

/-- The rest of a decimal number behind its point. -/
def fraction (cs : List Char) : List Char × List Char :=
  match cs with
  | '.' :: rest => (rest.takeWhile Char.isDigit, rest.dropWhile Char.isDigit)
  | _ => ([], cs)

/-- Whether characters spell a finite decimal number; digits may be missing on one side of the
point. -/
def isDecimal (cs : List Char) : Bool :=
  let whole := cs.takeWhile Char.isDigit
  let (decimals, tail) := fraction (cs.dropWhile Char.isDigit)
  match Text.exponent? tail with
  | none => false
  | some e => whole ++ decimals ≠ [] ∧ (Float.Model.ofScientific
      (Text.digitsValue 0 (whole ++ decimals)) (e - decimals.length)).isFinite

/-- A number without its sign. -/
def unsignedPart (cs : List Char) : List Char :=
  match cs with
  | '+' :: cs | '-' :: cs => cs
  | cs => cs

/-- Whether a text spells a floating-point number. -/
def isFloatWord (s : String) : Bool :=
  [".inf", ".Inf", ".INF", "+.inf", "+.Inf", "+.INF", "-.inf", "-.Inf", "-.INF", ".nan", ".NaN",
    ".NAN"].contains s || isDecimal (unsignedPart s.toList)

/-! ## What scalars stand for -/

/-- What a scalar stands for. An integer is huge when it needs more than 64 bits and fits into
128. -/
inductive Meaning where
  | missing
  | truth
  | natural (n : Nat)
  | number
  | hugeInteger
  | text (s : String)
  deriving DecidableEq, Repr

/-- The integer of at most 128 bits that a text spells. -/
def integer? (s : String) : Option Meaning :=
  match unsigned? Text.wordLimit s with
  | some n => some (.natural n)
  | none =>
    if isIntegerWithin 0x8000000000000000 0 s then some .number
    else if isIntegerWithin 0x80000000000000000000000000000000
        0xFFFFFFFFFFFFFFFFFFFFFFFFFFFFFFFF s then some .hugeInteger
    else none

/-- What a plain scalar without a tag stands for. -/
def meaningOfPlain (s : String) : Meaning :=
  if isNullWord s then .missing
  else if isBoolWord s then .truth
  else match integer? s with
    | some m => m
    | none =>
      if ¬hasLeadingZero (unsignedPart s.toList) ∧ isFloatWord s then .number
      else .text s

/-- A tag that YAML itself has. -/
def coreTag (name : String) : String :=
  "tag:yaml.org,2002:" ++ name

/-- Whether a tag is one of an application. -/
def isOwnTag (tag : String) : Bool :=
  (Text.after? "!" tag).isSome

/-- What a scalar with a tag stands for, if it is a word for something of that kind. Behind a tag
that is not known it is a text. -/
def meaningOfTagged? (tag s : String) : Option Meaning :=
  if isOwnTag tag then none
  else if tag = coreTag "bool" then if isBoolWord s then some .truth else none
  else if tag = coreTag "int" then integer? s
  else if tag = coreTag "float" then if isFloatWord s then some .number else none
  else if tag = coreTag "null" then if s ≠ "" ∧ isNullWord s then some .missing else none
  else some (.text s)

/-- What a scalar stands for, unless its tag is for something else. Without a tag only a plain
scalar is not a text. -/
def meaning? (tag : Option String) (style : Style) (s : String) : Option Meaning :=
  match tag, style with
  | some tag, _ => meaningOfTagged? tag s
  | none, .plain => some (meaningOfPlain s)
  | none, _ => some (.text s)

end Yaml

end ClusterLedger
