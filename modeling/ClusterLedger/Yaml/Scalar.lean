import ClusterLedger.Yaml.Basic
import ClusterLedger.Yaml.Input

/-!
# Scalars of YAML in a text

A scalar can go on over several lines: the white space around a line break is one blank, and empty
lines are line breaks. A separator of lines or paragraphs is kept wherever it stands.
-/
namespace ClusterLedger.Yaml

/-! ## White space inside a scalar -/

/-- White space that belongs to the scalar only if more of it follows: blanks of one line, a line
break and the breaks of empty lines behind it, or the breaks behind one that is escaped. Characters
are kept in reverse. -/
inductive Gap where
  | blanks (seen : List Char)
  | breaks (first : Char) (later : List Char)
  | escapedBreak (later : List Char)
  deriving DecidableEq, Repr

/-- More white space. -/
def Gap.add (c : Char) : Gap → Gap
  | blanks seen => if isBreak c then breaks c [] else blanks (c :: seen)
  | breaks first later => breaks first (if isBreak c then c :: later else later)
  | escapedBreak later => escapedBreak (if isBreak c then c :: later else later)

/-- What the white space is in the text, in reverse. -/
def Gap.reversed : Gap → List Char
  | blanks seen => seen
  | breaks first later =>
    if first ≠ '\n' then later ++ [first] else if later = [] then [' '] else later
  | escapedBreak later => later

/-- Whether a line break is in it. -/
def Gap.hasBreak : Gap → Bool
  | blanks _ => false
  | breaks _ _ | escapedBreak _ => true

/-! ## Plain scalars -/

/-- Characters that structure flow collections. -/
def isFlowMark (c : Char) : Bool :=
  [',', '[', ']', '{', '}'].contains c

/-- Whether a plain scalar can begin here. -/
def startsPlain (flow : Bool) : Input → Bool
  | [] => false
  | g :: rest =>
    if g.char = '-' then ¬atSpace rest
    else if g.char = '?' ∨ g.char = ':' then ¬flow ∧ ¬atSpace rest
    else ¬isSpace g.char ∧ ¬isFlowMark g.char ∧
      ¬['#', '&', '*', '!', '|', '>', '\'', '"', '%', '@', '`'].contains g.char

/-- Whether a colon stands where it can neither go on nor end a plain scalar. -/
def isStuck (flow : Bool) (g : Glyph) (rest : Input) : Bool :=
  flow ∧ g.char = ':' ∧ rest.head?.any fun h => isFlowMark h.char ∨ h.char = '?'

/-- Whether a character ends a plain scalar. -/
def endsPlain (flow : Bool) (g : Glyph) (rest : Input) : Bool :=
  (g.char = ':' ∧ atSpace rest) ∨ (flow ∧ isFlowMark g.char)

/-- A plain scalar that has been read: its text, whether a line has ended behind it, and the
rest. -/
structure Plain where
  text : String
  endsLine : Bool
  rest : Input
  deriving DecidableEq, Repr

/-- Goes on with a plain scalar, of which `seen` is the text so far in reverse. No tab may stand
left of the column `least` in later lines, which in a block have to reach it. -/
def plainFrom (flow : Bool) (least : Nat) (seen : List Char) (gap : Gap) : Input → Option Plain
  | [] => some ⟨String.ofList seen.reverse, gap.hasBreak, []⟩
  | g :: rest =>
    if isSpace g.char then
      if g.char = '\t' ∧ gap.hasBreak ∧ g.column < least then none
      else plainFrom flow least seen (gap.add g.char) rest
    else
      let inGap := gap ≠ .blanks []
      if inGap ∧ ((¬flow ∧ gap.hasBreak ∧ g.column < least) ∨ g.char = '#' ∨
          atBoundary (g :: rest)) then
        some ⟨String.ofList seen.reverse, gap.hasBreak, g :: rest⟩
      else if isStuck flow g rest then none
      else if endsPlain flow g rest then
        some ⟨String.ofList seen.reverse, gap.hasBreak, g :: rest⟩
      else plainFrom flow least (g.char :: (gap.reversed ++ seen)) (.blanks []) rest

/-- The plain scalar that begins here. -/
def plain? (flow : Bool) (least : Nat) (input : Input) : Option Plain :=
  plainFrom flow least [] (.blanks []) input

/-! ## Quoted scalars -/

/-- Where inside a quoted scalar the reader is. -/
inductive QuotedState where
  | text
  | gap (g : Gap)
  | quote
  | backslash
  | digits (missing value : Nat)
  deriving DecidableEq, Repr

/-- The character behind a backslash that stands for a single one. -/
def escape? : Char → Option Char
  | '0' => '\x00'
  | 'a' => '\x07'
  | 'b' => '\x08'
  | 't' | '\t' => '\t'
  | 'n' => '\n'
  | 'v' => '\x0b'
  | 'f' => '\x0c'
  | 'r' => '\r'
  | 'e' => '\x1b'
  | ' ' => ' '
  | '"' => '"'
  | '/' => '/'
  | '\\' => '\\'
  | 'N' => '\u0085'
  | '_' => '\u00a0'
  | 'L' => '\u2028'
  | 'P' => '\u2029'
  | _ => none

/-- How many digits follow a backslash and this letter. -/
def escapeDigits? : Char → Option Nat
  | 'x' => some 2
  | 'u' => some 4
  | 'U' => some 8
  | _ => none

/-- The character of a number, if it is one. -/
def charOf? (n : Nat) : Option Char :=
  if n.isValidChar then some (Char.ofNat n) else none

/-- What a character of the text proper leads to; a quote may be the end. -/
def quotedText (double : Bool) (seen : List Char) (c : Char) : List Char × QuotedState :=
  if c = (if double then '"' else '\'') then (seen, .quote)
  else if double ∧ c = '\\' then (seen, .backslash)
  else if isSpace c then (seen, .gap ((Gap.blanks []).add c))
  else (c :: seen, .text)

/-- One character of a quoted scalar: the text so far in reverse, and the state behind it. -/
def quotedStep? (double : Bool) (seen : List Char) (c : Char) :
    QuotedState → Option (List Char × QuotedState)
  | .text => some (quotedText double seen c)
  | .gap g =>
    if isSpace c then some (seen, .gap (g.add c))
    else some (quotedText double (g.reversed ++ seen) c)
  | .quote => if double ∨ c ≠ '\'' then none else some ('\'' :: seen, .text)
  | .backslash =>
    if isBreak c then some (seen, .gap (.escapedBreak []))
    else match escape? c, escapeDigits? c with
      | some d, _ => some (d :: seen, .text)
      | none, some n => some (seen, .digits n 0)
      | none, none => none
  | .digits missing value => do
    let value := 16 * value + (← digitIn? 16 c)
    if missing ≤ 1 then return ((← charOf? value) :: seen, .text)
    else return (seen, .digits (missing - 1) value)

/-- Goes on with a quoted scalar. After a closing quote it ends before whatever is no second one. -/
def quotedFrom (double : Bool) (seen : List Char) (state : QuotedState) :
    Input → Option (String × Input)
  | [] => if state = .quote then some (String.ofList seen.reverse, []) else none
  | g :: rest =>
    if state = .quote ∧ (double ∨ g.char ≠ '\'') then some (String.ofList seen.reverse, g :: rest)
    else if atBoundary (g :: rest) ∧ state ≠ .quote then none
    else match quotedStep? double seen g.char state with
      | none => none
      | some (seen, state) => quotedFrom double seen state rest

/-- The quoted scalar behind an opening quote. -/
def quoted? (double : Bool) (input : Input) : Option (String × Input) :=
  quotedFrom double [] .text input

end ClusterLedger.Yaml
