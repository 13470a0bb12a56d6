import ClusterLedger.Yaml.Scalar

/-!
# YAML tokens

Blocks are told by their columns: a token begins a block when it stands further inside than the
block around it, and ends every block that it stands left of. That a scalar or a flow collection is a
key shows only at the colon behind it, so each one that may be a key is remembered as a candidate until
then; a key has to end in its line and within 1024 bytes. Anchors, aliases, tags, block scalars and directives
are refused.
-/
namespace ClusterLedger.Yaml

/-- The pieces of a document. -/
inductive Token where
  | documentStart
  | documentEnd
  | blockSequence
  | blockMapping
  | blockEnd
  | flowSequence
  | flowSequenceEnd
  | flowMapping
  | flowMappingEnd
  | item
  | comma
  | key
  | value
  | scalar (style : Style) (text : String)
  deriving DecidableEq, Repr

/-! ## Keys -/

/-- What may turn out to be a key: how many tokens stand before it, where it begins, and whether
nothing but a key may stand there. -/
structure Candidate where
  position : Nat
  start : Glyph
  isRequired : Bool
  deriving DecidableEq, Repr

/-- How many bytes after the beginning of a key its colon may stand. -/
def keyLimit : Nat := 1024

/-- Whether a candidate begins in an earlier line than a character, or too far before it. -/
def Candidate.isPast (k : Candidate) (g : Glyph) : Bool :=
  k.start.line < g.line ∨ k.start.index + keyLimit < g.index

/-- Gives a candidate up, which must not be required. -/
def Candidate.forget? (k : Option Candidate) : Option Unit :=
  if k.any (·.isRequired) then none else some ()

/-- A candidate in view of a later character. -/
def Candidate.keep? (g : Glyph) (k : Option Candidate) : Option (Option Candidate) :=
  if k.any (·.isPast g) then (forget? k).map fun _ => none else some k

/-! ## The scanner -/

/-- What the scanner knows: the tokens so far, the last one first; the columns of the open blocks, the
innermost first; the candidate of the innermost flow collection and those of what is around it; and
whether a key may begin here. -/
structure Scanner where
  tokens : List Token := []
  columns : List Nat := []
  candidate : Option Candidate := none
  outer : List (Option Candidate) := []
  allowsKey : Bool := true
  deriving DecidableEq, Repr

namespace Scanner

/-- Whether a flow collection is open. -/
def inFlow (s : Scanner) : Bool :=
  s.outer ≠ []

/-- The first column inside of the innermost block. -/
def least (s : Scanner) : Nat :=
  match s.columns with
  | [] => 0
  | c :: _ => c + 1

/-- One more token. -/
def push (s : Scanner) (t : Token) : Scanner :=
  { s with tokens := t :: s.tokens }

/-- Puts a token in front of all tokens but the first ones. -/
def insertAt (s : Scanner) (position : Nat) (t : Token) : Scanner :=
  let behind := s.tokens.length - position
  { s with tokens := s.tokens.take behind ++ t :: s.tokens.drop behind }

/-- Gives up the innermost candidate. -/
def forget? (s : Scanner) : Option Scanner :=
  (Candidate.forget? s.candidate).map fun _ => { s with candidate := none }

/-- Gives up the candidates that a character is too late for. -/
def expire? (s : Scanner) (g : Glyph) : Option Scanner := do
  return { s with
    candidate := ← Candidate.keep? g s.candidate
    outer := ← s.outer.mapM (Candidate.keep? g) }

/-- Remembers what begins here, if a key may. In the column of a block nothing else may stand. -/
def remember? (s : Scanner) (g : Glyph) : Option Scanner :=
  if s.allowsKey then
    s.forget?.map fun s =>
      { s with candidate := some ⟨s.tokens.length, g, ¬s.inFlow ∧ s.columns.head? = some g.column⟩ }
  else some s

/-- Begins a block in a column, in front of all tokens but the first ones, unless the column is no
further inside. -/
def openBlock (s : Scanner) (column position : Nat) (t : Token) : Scanner :=
  if ¬s.inFlow ∧ s.least ≤ column then
    { s.insertAt position t with columns := column :: s.columns }
  else s

/-- Ends the blocks whose column is at least the given one. -/
def closeBlocks (s : Scanner) (column : Nat) : Scanner :=
  if s.inFlow then s
  else
    let closed := s.columns.takeWhile (column ≤ ·)
    { s with
      tokens := closed.map (fun _ => .blockEnd) ++ s.tokens
      columns := s.columns.drop closed.length }

/-! ## Single tokens -/

/-- A line that begins or ends a document; it ends all blocks. -/
def marker? (s : Scanner) (t : Token) : Option Scanner :=
  (s.closeBlocks 0).forget?.map fun s => { s.push t with allowsKey := false }

/-- A bracket that opens; the collection can be a key, and a key can follow. -/
def openFlow? (s : Scanner) (g : Glyph) (t : Token) : Option Scanner :=
  (s.remember? g).map fun s =>
    { s.push t with candidate := none, outer := s.candidate :: s.outer, allowsKey := true }

/-- A bracket that closes. -/
def closeFlow? (s : Scanner) (t : Token) : Option Scanner :=
  s.forget?.map fun s =>
    { s.push t with candidate := s.outer.head?.join, outer := s.outer.tail, allowsKey := false }

/-- A comma. -/
def comma? (s : Scanner) : Option Scanner :=
  s.forget?.map fun s => { s.push .comma with allowsKey := true }

/-- The sign of an item, or of a key that is told by a sign; in a block it stands where a key may
begin. -/
def sign? (s : Scanner) (g : Glyph) (block t : Token) (allowsKey : Bool) : Option Scanner :=
  if s.inFlow ∨ s.allowsKey then
    (s.openBlock g.column s.tokens.length block).forget?.map fun s => { s.push t with allowsKey }
  else none

/-- A colon. What was remembered is a key, and no key can follow; without it the value has a key that
is told by a sign, or none. -/
def colon? (s : Scanner) (g : Glyph) : Option Scanner :=
  match s.candidate with
  | some k =>
    let s := (s.insertAt k.position .key).openBlock k.start.column k.position .blockMapping
    some { s.push .value with candidate := none, allowsKey := false }
  | none => s.sign? g .blockMapping .value (¬s.inFlow)

/-- A quoted scalar behind its opening quote. -/
def quoted? (s : Scanner) (g : Glyph) (rest : Input) : Option (Scanner × Input) := do
  let s ← s.remember? g
  let (text, rest) ← Yaml.quoted? (g.char = '"') rest
  return ({ s.push (.scalar .quoted text) with allowsKey := false }, rest)

/-- A plain scalar. When a line has ended behind it, a key can follow. -/
def plain? (s : Scanner) (g : Glyph) (rest : Input) : Option (Scanner × Input) := do
  let s ← s.remember? g
  let p ← Yaml.plain? s.inFlow s.least (g :: rest)
  return ({ s.push (.scalar .plain p.text) with allowsKey := p.endsLine }, p.rest)

/-- The token that begins with a character. -/
def token? (s : Scanner) (g : Glyph) (rest : Input) : Option (Scanner × Input) :=
  let alone (t : Option Scanner) : Option (Scanner × Input) := t.map fun s => (s, rest)
  let isSign := s.inFlow ∨ atSpace rest
  if atMarker '-' (g :: rest) then (s.marker? .documentStart).map fun s => (s, rest.drop 2)
  else if atMarker '.' (g :: rest) then (s.marker? .documentEnd).map fun s => (s, rest.drop 2)
  else match g.char with
    | '[' => alone (s.openFlow? g .flowSequence)
    | '{' => alone (s.openFlow? g .flowMapping)
    | ']' => alone (s.closeFlow? .flowSequenceEnd)
    | '}' => alone (s.closeFlow? .flowMappingEnd)
    | ',' => alone s.comma?
    | '"' | '\'' => s.quoted? g rest
    | c =>
      if c = '-' ∧ atSpace rest then alone (s.sign? g .blockSequence .item true)
      else if c = '?' ∧ isSign then alone (s.sign? g .blockMapping .key (¬s.inFlow))
      else if c = ':' ∧ isSign then alone (s.colon? g)
      else if startsPlain s.inFlow (g :: rest) then s.plain? g rest
      else none

/-! ## All tokens -/

/-- Skips white space and comments, and tells whether a key may begin behind them. Where a key may
begin in a block, no tab may stand. -/
def skip (flow : Bool) (allowsKey comment : Bool) : Input → Bool × Input
  | [] => (allowsKey, [])
  | g :: rest =>
    if isBreak g.char then skip flow (allowsKey || !flow) false rest
    else if comment then skip flow allowsKey true rest
    else if g.char = ' ' ∨ (g.char = '\t' ∧ (flow ∨ ¬allowsKey)) then skip flow allowsKey false rest
    else if g.char = orderMark ∧ g.column = 0 then skip flow allowsKey false rest
    else if g.char = '#' then skip flow allowsKey true rest
    else (allowsKey, g :: rest)

/-- The tokens of an input. The first argument bounds their number; every token takes a character. -/
def scan? : Nat → Scanner → Input → Option Scanner
  | 0, _, _ => none
  | fuel + 1, s, input =>
    let (allowsKey, input) := skip s.inFlow s.allowsKey false input
    match input with
    | [] => (s.closeBlocks 0).forget?
    | g :: rest => do
      let s ← { s with allowsKey }.expire? g
      let (s, rest) ← (s.closeBlocks (g.column + 1)).token? g rest
      scan? fuel s rest

end Scanner

/-- The tokens of an input. -/
def tokens? (input : Input) : Option (List Token) :=
  (Scanner.scan? (input.length + 1) {} input).map fun s => s.tokens.reverse

end ClusterLedger.Yaml
