import ClusterLedger.Json.Printer

/-!
# What is wrong with a JSON text

A text that is refused has a first fault: what is wrong, and how far the text had been looked at when
it showed.
-/
namespace ClusterLedger.Json

/-- What is unfinished where a text breaks off. -/
inductive Unfinished where
  | value
  | string
  | inside (bracket : Bracket)
  deriving DecidableEq, Repr

/-- What can be wrong: the form of the text, or what a record of known fields finds in it. -/
inductive Flaw where
  | ended (what : Unfinished)
  | noColon
  | noComma (bracket : Bracket)
  | noLiteral
  | noValue
  | noKey
  | lastComma
  | trailing
  | number
  | tooLarge
  | control
  | escape
  | halfEscape
  | halfPair
  | notText
  | missingField (name : String)
  | repeatedField (name : String)
  | tooFew (count : Nat) (wanted : String)
  | wrongType (found wanted : String)
  | wrongValue (found wanted : String)
  | refused (words : String)
  deriving DecidableEq, Repr

/-- A fault and its place: a line, and how many bytes of that line had been looked at. -/
structure Fault where
  flaw : Flaw
  line : Nat
  column : Nat
  deriving DecidableEq, Repr

/-- The fault that shows once the given bytes have been looked at. -/
def Fault.behind (flaw : Flaw) (looked : List UInt8) : Fault :=
  ⟨flaw, looked.count 10 + 1, (looked.reverse.takeWhile (· ≠ 10)).length⟩

/-! ## Words -/

/-- What is unfinished, in words. -/
def Unfinished.phrase : Unfinished → String
  | value => "a value"
  | string => "a string"
  | inside .array => "a list"
  | inside .object => "an object"

/-- What is wrong, in words. -/
def Flaw.message : Flaw → String
  | ended what => s!"EOF while parsing {what.phrase}"
  | noColon => "expected `:`"
  | noComma .array => "expected `,` or `]`"
  | noComma .object => "expected `,` or `\x7d`"
  | noLiteral => "expected ident"
  | noValue => "expected value"
  | noKey => "key must be a string"
  | lastComma => "trailing comma"
  | trailing => "trailing characters"
  | number => "invalid number"
  | tooLarge => "number out of range"
  | control => "control character (\\u0000-\\u001F) found while parsing a string"
  | escape => "invalid escape"
  | halfEscape => "unexpected end of hex escape"
  | halfPair => "lone leading surrogate in hex escape"
  | notText => "invalid unicode code point"
  | missingField name => s!"missing field `{name}`"
  | repeatedField name => s!"duplicate field `{name}`"
  | tooFew count wanted => s!"invalid length {count}, expected {wanted}"
  | wrongType found wanted => s!"invalid type: {found}, expected {wanted}"
  | wrongValue found wanted => s!"invalid value: {found}, expected {wanted}"
  | refused words => words

/-- The fault in words. -/
def Fault.message (f : Fault) : String :=
  f.flaw.message ++ s!" at line {f.line} column {f.column}"

/-- A value that should have been something else, in words. -/
def description : Json → String
  | .null => "null"
  | .bool true => "boolean `true`"
  | .bool false => "boolean `false`"
  | .number (.int n) => "integer `" ++ String.ofList (intChars n) ++ "`"
  | .number (.float x) => "floating point `" ++ String.ofList x.text ++ "`"
  | .string s => "string " ++ String.ofList (quoted s)
  | .array _ => "sequence"
  | .object _ => "map"

end ClusterLedger.Json
