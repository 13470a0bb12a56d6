import ClusterLedger.Json.Basic
import ClusterLedger.Text.Digits

/-!
# Writing JSON

Two layouts: `compact` has no white space, `pretty` puts every item on a line of its own with one
indent for each array or object around it. Strings escape the quote, the backslash and what lies
below U+0020.
-/
namespace ClusterLedger.Json

/-! ## Leaves -/

/-- The two hexadecimal digits of a number below 256. -/
def hexPair (n : Nat) : List Char :=
  [Nat.digitChar (n / 16 % 16), Nat.digitChar (n % 16)]

/-- A character as it stands in a string. -/
def escapeChar (c : Char) : List Char :=
  if c = '"' then ['\\', '"']
  else if c = '\\' then ['\\', '\\']
  else if c = '\x08' then ['\\', 'b']
  else if c = '\x0c' then ['\\', 'f']
  else if c = '\n' then ['\\', 'n']
  else if c = '\r' then ['\\', 'r']
  else if c = '\t' then ['\\', 't']
  else if c.toNat < 0x20 then ['\\', 'u', '0', '0'] ++ hexPair c.toNat
  else [c]

/-- A string between quotes. -/
def quoted (s : String) : List Char :=
  '"' :: (s.toList.flatMap escapeChar ++ ['"'])

/-- An integer in decimal. -/
def intChars (n : Int) : List Char :=
  if n < 0 then '-' :: Text.digits n.natAbs else Text.digits n.natAbs

/-- A number; a floating-point number always shows a point or an exponent. -/
def Number.chars : Number → List Char
  | .int n => intChars n
  | .float x => x.text

/-! ## Layouts -/

mutual
/-- The text without white space. -/
def compactChars : Json → List Char
  | null => ['n', 'u', 'l', 'l']
  | bool true => ['t', 'r', 'u', 'e']
  | bool false => ['f', 'a', 'l', 's', 'e']
  | number n => n.chars
  | string s => quoted s
  | array items => '[' :: (compactItems items ++ [']'])
  | object members => '{' :: (compactMembers members ++ ['}'])

def compactItems : List Json → List Char
  | [] => []
  | [v] => v.compactChars
  | v :: rest => v.compactChars ++ ',' :: compactItems rest

def compactMembers : List (String × Json) → List Char
  | [] => []
  | [(k, v)] => quoted k ++ ':' :: v.compactChars
  | (k, v) :: rest => quoted k ++ ':' :: (v.compactChars ++ ',' :: compactMembers rest)
end

/-- A new line with `level` indents. -/
def newline (indent : List Char) (level : Nat) : List Char :=
  '\n' :: (List.replicate level indent).flatten

mutual
/-- The text with one item or member on a line, inside `level` arrays and objects. -/
def prettyChars (indent : List Char) (level : Nat) : Json → List Char
  | null => ['n', 'u', 'l', 'l']
  | bool true => ['t', 'r', 'u', 'e']
  | bool false => ['f', 'a', 'l', 's', 'e']
  | number n => n.chars
  | string s => quoted s
  | array [] => ['[', ']']
  | array (v :: items) =>
    '[' :: (newline indent (level + 1) ++ v.prettyChars indent (level + 1)
      ++ prettyItems indent (level + 1) items ++ newline indent level ++ [']'])
  | object [] => ['{', '}']
  | object ((k, v) :: members) =>
    '{' :: (newline indent (level + 1) ++ quoted k ++ ':' :: ' ' :: v.prettyChars indent (level + 1)
      ++ prettyMembers indent (level + 1) members ++ newline indent level ++ ['}'])

/-- The items behind the first one, each after a comma. -/
def prettyItems (indent : List Char) (level : Nat) : List Json → List Char
  | [] => []
  | v :: rest =>
    ',' :: (newline indent level ++ v.prettyChars indent level ++ prettyItems indent level rest)

/-- The members behind the first one, each after a comma. -/
def prettyMembers (indent : List Char) (level : Nat) : List (String × Json) → List Char
  | [] => []
  | (k, v) :: rest =>
    ',' :: (newline indent level ++ quoted k ++ ':' :: ' ' :: v.prettyChars indent level
      ++ prettyMembers indent level rest)
end

/-- The text without white space. -/
def compact (v : Json) : String :=
  String.ofList v.compactChars

/-- The text indented by `indent`. -/
def pretty (indent : String) (v : Json) : String :=
  String.ofList (v.prettyChars indent.toList 0)

end ClusterLedger.Json
