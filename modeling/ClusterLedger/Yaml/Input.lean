/-!
# The text of a YAML document

A text is read as a list of characters with their places. Five line breaks count: line feed,
carriage return, both together, next line, and the line and paragraph separators. The first four are
a line feed from here on, and the separators stay what they are.
-/
namespace ClusterLedger.Yaml

/-- A character and its place: the line, the column, and how many bytes of UTF-8 stand before it. -/
structure Glyph where
  char : Char
  line : Nat
  column : Nat
  index : Nat
  deriving DecidableEq, Repr

/-- The characters from a place on. -/
abbrev Input := List Glyph

/-! ## Characters -/

/-- Whether a character may stand in a document. -/
def isAllowed (c : Char) : Bool :=
  let n := c.toNat
  c = '\t' || c = '\n' || c = '\r' || (0x20 ≤ n && n ≤ 0x7E) || n == 0x85
    || (0xA0 ≤ n && n ≤ 0xFFFD) || 0x10000 ≤ n

/-- What a line break is read as. -/
def lineBreak? (c : Char) : Option Char :=
  if c = '\n' ∨ c = '\r' ∨ c = '\u0085' then some '\n'
  else if c = '\u2028' ∨ c = '\u2029' then some c
  else none

/-- Whether a character that was read is a line break. -/
def isBreak (c : Char) : Bool :=
  (lineBreak? c).isSome

/-- A blank inside a line. -/
def isBlank (c : Char) : Bool :=
  c = ' ' ∨ c = '\t'

/-- White space, line breaks included. -/
def isSpace (c : Char) : Bool :=
  isBlank c || isBreak c

/-- The mark of the byte order, which may begin a line. -/
def orderMark : Char := '\uFEFF'

/-! ## Places -/

/-- The characters with their places, from a place on. -/
def placed (line column index : Nat) : List Char → Input
  | [] => []
  | '\r' :: '\n' :: cs => ⟨'\n', line, column, index⟩ :: placed (line + 1) 0 (index + 2) cs
  | c :: cs => match lineBreak? c with
    | some b => ⟨b, line, column, index⟩ :: placed (line + 1) 0 (index + c.utf8Size) cs
    | none => ⟨c, line, column, index⟩ :: placed line (column + 1) (index + c.utf8Size) cs

/-- A text as input, if all of its characters are allowed. -/
def input? (s : String) : Option Input :=
  if s.toList.all isAllowed then some (placed 0 0 0 s.toList) else none

/-- Whether white space or the end comes next. -/
def atSpace : Input → Bool
  | [] => true
  | g :: _ => isSpace g.char

/-- Whether a line with `---` or `...` comes next, which begins or ends a document. -/
def atMarker (mark : Char) : Input → Bool
  | g :: h :: i :: rest =>
    g.column = 0 ∧ g.char = mark ∧ h.char = mark ∧ i.char = mark ∧ atSpace rest
  | _ => false

/-- Whether the document ends here. -/
def atBoundary (input : Input) : Bool :=
  atMarker '-' input || atMarker '.' input

end ClusterLedger.Yaml
