import ClusterLedger.Json.Numeral
import ClusterLedger.Text.Utf8

/-!
# JSON tokens

The scanner reads a text character by character. Between tokens only space, tab, line feed and
carriage return are skipped; whatever else is neither punctuation nor a string belongs to a word,
and a word has to be a literal or a number. A number can be too large, and a string can hold half of
a surrogate pair or bytes that are no character: these are tokens of the right form without a value.
-/
namespace ClusterLedger.Json

/-- The pieces of a JSON text. -/
inductive Token where
  | openArray
  | closeArray
  | openObject
  | closeObject
  | comma
  | colon
  | null
  | bool (value : Bool)
  | number (value : Option Number)
  | string (value : Option String)
  deriving DecidableEq, Repr

/-! ## Words -/

/-- The token that a word spells. -/
def Token.ofWord? (word : List Char) : Option Token :=
  if word = ['n', 'u', 'l', 'l'] then some .null
  else if word = ['t', 'r', 'u', 'e'] then some (.bool true)
  else if word = ['f', 'a', 'l', 's', 'e'] then some (.bool false)
  else (Numeral.ofChars? word).map fun n => .number n.value?

/-! ## The scanner -/

/-- Inside a string: after a backslash, or within the four digits of an escape. A code unit that
needs a second one is kept as `high`. -/
inductive Escape where
  | none
  | backslash
  | unit (high : Option Nat) (missing : Nat) (bits : Nat)
  | lowBackslash (high : Nat)
  | lowU (high : Nat)
  deriving DecidableEq, Repr

/-- What the scanner is in the middle of; characters are kept in reverse, and a string that cannot be
a text keeps none. -/
inductive Mode where
  | between
  | word (seen : List Char)
  | string (seen : Option (List Char)) (escape : Escape)
  deriving DecidableEq, Repr

/-- A scanner state: what it is in the middle of and the tokens so far, the last one first. -/
structure Scanner where
  mode : Mode
  tokens : List Token
  deriving DecidableEq, Repr

/-- The characters that separate tokens. -/
def isSpace (c : Char) : Bool :=
  c = ' ' ∨ c = '\t' ∨ c = '\n' ∨ c = '\r'

/-- The characters that are tokens by themselves. -/
def punctuation? : Char → Option Token
  | '[' => some .openArray
  | ']' => some .closeArray
  | '{' => some .openObject
  | '}' => some .closeObject
  | ',' => some .comma
  | ':' => some .colon
  | _ => none

/-- The value of a hexadecimal digit. -/
def hexDigit? (c : Char) : Option Nat :=
  if c.isDigit then some (c.toNat - '0'.toNat)
  else if 'a' ≤ c ∧ c ≤ 'f' then some (c.toNat - 'a'.toNat + 10)
  else if 'A' ≤ c ∧ c ≤ 'F' then some (c.toNat - 'A'.toNat + 10)
  else none

/-- The character behind a backslash that stands for a single one. -/
def simpleEscape? : Char → Option Char
  | '"' => some '"'
  | '\\' => some '\\'
  | '/' => some '/'
  | 'b' => some '\x08'
  | 'f' => some '\x0c'
  | 'n' => some '\n'
  | 'r' => some '\r'
  | 't' => some '\t'
  | _ => none

/-- One more character of a string. -/
def nextChar (seen : Option (List Char)) (c : Char) : Mode :=
  .string (seen.map (c :: ·)) .none

/-- A finished code unit: a character or half of a pair. A second half alone is no text, nor is a first
half before anything but a second one. -/
def codeUnit (seen : Option (List Char)) (high : Option Nat) (unit : Nat) : Mode :=
  match high with
  | some h =>
    if 0xDC00 ≤ unit ∧ unit < 0xE000 then
      nextChar seen (Char.ofNat (0x10000 + (h - 0xD800) * 0x400 + (unit - 0xDC00)))
    else .string none .none
  | none =>
    if 0xD800 ≤ unit ∧ unit < 0xDC00 then .string seen (.lowBackslash unit)
    else if 0xDC00 ≤ unit ∧ unit < 0xE000 then .string none .none
    else nextChar seen (Char.ofNat unit)

/-- What a string is before a character: half of a pair behind which no second one follows is no
text. -/
def unpaired (seen : Option (List Char)) (c : Option Char) :
    Escape → Option (List Char) × Escape
  | .lowBackslash high => if c = some '\\' then (seen, .lowBackslash high) else (none, .none)
  | .lowU high => if c = some 'u' then (seen, .lowU high) else (none, .backslash)
  | escape => (seen, escape)

/-- One character inside a string, or bytes that are none; `none` for what a string may not hold. -/
def stringStep? (seen : Option (List Char)) (c : Option Char) : Escape → Option Mode
  | .none => match c with
    | none => some (.string none .none)
    | some c =>
      if c = '\\' then some (.string seen .backslash)
      else if c.toNat < 0x20 then none
      else some (nextChar seen c)
  | .backslash =>
    if c = some 'u' then some (.string seen (.unit none 4 0))
    else (c.bind simpleEscape?).map (nextChar seen)
  | .unit high missing bits => do
    let bits := bits * 16 + (← c.bind hexDigit?)
    if missing = 1 then return codeUnit seen high bits
    else return .string seen (.unit high (missing - 1) bits)
  | .lowBackslash high => some (.string seen (.lowU high))
  | .lowU high => some (.string seen (.unit (some high) 4 0))

/-- One character outside strings, when the tokens before it are complete. -/
def outsideStep (tokens : List Token) (c : Char) : Scanner :=
  if isSpace c then ⟨.between, tokens⟩
  else if c = '"' then ⟨.string (some []) .none, tokens⟩
  else match punctuation? c with
    | some t => ⟨.between, t :: tokens⟩
    | none => ⟨.word [c], tokens⟩

/-- Whether a character ends a word. -/
def endsWord (c : Char) : Bool :=
  isSpace c || c = '"' || (punctuation? c).isSome

/-- One character, or bytes that are none, which only a string may hold. -/
def Scanner.step? (s : Scanner) (c : Option Char) : Option Scanner :=
  match s.mode with
  | .between => c.map (outsideStep s.tokens)
  | .word seen => do
    let c ← c
    if endsWord c then
      (Token.ofWord? seen.reverse).map fun t => outsideStep (t :: s.tokens) c
    else some ⟨.word (c :: seen), s.tokens⟩
  | .string seen escape =>
    let (seen, escape) := unpaired seen c escape
    if escape = .none ∧ c = some '"' then
      some ⟨.between, .string (seen.map fun cs => String.ofList cs.reverse) :: s.tokens⟩
    else (stringStep? seen c escape).map fun mode => ⟨mode, s.tokens⟩

/-- The tokens once the text has ended. -/
def Scanner.finish? (s : Scanner) : Option (List Token) :=
  match s.mode with
  | .between => some s.tokens.reverse
  | .word seen => (Token.ofWord? seen.reverse).map fun t => (t :: s.tokens).reverse
  | .string _ _ => none

/-- The state behind characters, among which there can be bytes that are none. -/
def Scanner.run? (cs : List (Option Char)) : Option Scanner :=
  cs.foldlM Scanner.step? ⟨.between, []⟩

/-- The tokens of a text. -/
def tokens? (cs : List Char) : Option (List Token) :=
  (Scanner.run? (cs.map some)).bind Scanner.finish?

/-- The tokens of bytes. -/
def tokensOfBytes? (bytes : ByteArray) : Option (List Token) :=
  (Scanner.run? (Text.letters bytes)).bind Scanner.finish?

end ClusterLedger.Json
