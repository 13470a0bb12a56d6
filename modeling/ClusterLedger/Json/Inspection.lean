import ClusterLedger.Json.Fault
import ClusterLedger.Json.Token

/-!
# Looking for the first fault

Bytes that do not hold the record they should hold are gone through once more, one by one, as far as
they are what such a record begins with. What an ignored field holds is only skipped, so it can have
fewer faults than the value of a known one.
-/
namespace ClusterLedger.Json

/-- Goes through bytes. A fault comes with the number of bytes that were not looked at. -/
abbrev Inspection := StateT (List UInt8) (Except (Flaw × Nat))

namespace Inspection

/-- The fault shows in the bytes so far. -/
def here {α : Type} (f : Flaw) : Inspection α := do
  throw (f, (← get).length)

/-- The fault shows in the next byte, or at the end. -/
def ahead {α : Type} (f : Flaw) : Inspection α := do
  throw (f, (← get).length - 1)

/-! ## Bytes -/

/-- A byte as the character of that number. -/
def letter (b : UInt8) : Char :=
  Char.ofNat b.toNat

/-- The next byte, which stays. -/
def peek : Inspection (Option Char) := do
  return (← get).head?.map letter

/-- Goes past the next byte. -/
def skip : Inspection Unit :=
  modify List.tail

/-- The next byte; there has to be one. -/
def take (atEnd : Flaw) : Inspection Char := do
  match ← peek with
  | some c =>
    skip
    return c
  | none => here atEnd

/-- Goes past the next byte if it is the given one. -/
def accept (c : Char) : Inspection Bool := do
  if (← peek) = some c then
    skip
    return true
  else return false

/-- Goes past white space. -/
def blank : Inspection Unit :=
  modify (·.dropWhile fun b => isSpace (letter b))

/-- The next byte behind white space, which stays; there has to be one. -/
def next (atEnd : Flaw) : Inspection Char := do
  blank
  match ← peek with
  | some c => return c
  | none => here atEnd

/-! ## Strings -/

/-- The code unit of four digits. -/
def unit : Inspection Nat := do
  let ds := (← get).take 4
  modify (·.drop 4)
  if ds.length < 4 then here (.ended .string)
  match ds.foldlM (fun n b => (hexDigit? (letter b)).map (16 * n + ·)) 0 with
  | some n => return n
  | none => here .escape

/-- The second half of a pair of code units, and the character that both are. -/
def pair (high : Nat) : Inspection Char := do
  for c in ['\\', 'u'] do
    if (← take (.ended .string)) ≠ c then here .halfEscape
  let low ← unit
  if 0xDC00 ≤ low ∧ low < 0xE000 then
    return Char.ofNat (0x10000 + (high - 0xD800) * 0x400 + (low - 0xDC00))
  else here .halfPair

/-- The character of an escape, behind the backslash. In a string that does not matter, any code unit
will do. -/
def escaped (matters : Bool) : Inspection Char := do
  let c ← take (.ended .string)
  if c = 'u' then
    let n ← unit
    if ¬matters ∨ n < 0xD800 ∨ 0xE000 ≤ n then return Char.ofNat n
    else if n < 0xDC00 then pair n
    else here .halfPair
  else match simpleEscape? c with
    | some c => return c
    | none => here .escape

/-- A string behind its opening quote, of which `seen` is the part so far in reverse. The first
argument bounds the number of steps. -/
def stringFrom (matters : Bool) : Nat → List UInt8 → Inspection String
  | 0, _ => here (.ended .string)
  | fuel + 1, seen => do
    match ← get with
    | [] => here (.ended .string)
    | b :: rest =>
      if b < 0x20 then if matters then ahead .control else here .control
      set rest
      match letter b with
      | '"' => match String.fromUTF8? ⟨seen.reverse.toArray⟩ with
        | some s => return s
        | none => if matters then here .notText else return ""
      | '\\' =>
        let c ← escaped matters
        stringFrom matters fuel ((String.singleton c).toUTF8.data.toList.reverse ++ seen)
      | _ => stringFrom matters fuel (b :: seen)

/-- A string behind its opening quote. -/
def string (matters : Bool) : Inspection String := do
  stringFrom matters ((← get).length + 1) []

/-! ## Other scalars -/

/-- Letters that have to follow. -/
def letters : List Char → Inspection Unit
  | [] => return
  | c :: cs => do
    if (← take (.ended .value)) ≠ c then here .noLiteral
    letters cs

/-- Digits, as many as there are. -/
def digits : Inspection (List UInt8) := do
  let ds := (← get).takeWhile fun b => (letter b).isDigit
  modify (·.drop ds.length)
  return ds

/-- Digits, of which there has to be one. Where the number does not matter, the end is like any other
byte that is no digit. -/
def someDigits (matters : Bool) : Inspection Unit := do
  let c ← take (if matters then .ended .value else .number)
  if ¬c.isDigit then here .number
  discard digits

/-- The digits in front of the point: a zero stands alone. -/
def whole (matters : Bool) : Inspection Unit := do
  if ← accept '0' then
    if (← peek).any Char.isDigit then ahead .number
  else someDigits matters

/-- The fraction, if there is one. -/
def decimals (matters : Bool) : Inspection Unit := do
  if ← accept '.' then
    if (← digits) = [] then
      ahead (if matters ∧ (← get) = [] then .ended .value else .number)

/-- The exponent, if there is one. -/
def exponent (matters : Bool) : Inspection Unit := do
  if (← peek).any fun c => c = 'e' ∨ c = 'E' then
    skip
    if (← peek).any fun c => c = '+' ∨ c = '-' then skip
    someDigits matters

/-- A number. -/
def numeral (matters : Bool) : Inspection Unit := do
  discard (accept '-')
  whole matters
  decimals matters
  exponent matters

/-- A number, with its value. -/
def number : Inspection Number := do
  let before ← get
  numeral true
  let word := before.take (before.length - (← get).length)
  match (Numeral.ofChars? (word.map letter)).bind Numeral.value? with
  | some n => return n
  | none => here .tooLarge

/-- The value that begins with a character, if it is neither an array nor an object. -/
def scalar? (matters : Bool) (c : Char) : Option (Inspection Json) :=
  if c = '"' then some do
    skip
    return .string (← string matters)
  else if c = 'n' then some do
    letters "null".toList
    return .null
  else if c = 't' then some do
    letters "true".toList
    return .bool true
  else if c = 'f' then some do
    letters "false".toList
    return .bool false
  else if c = '-' ∨ c.isDigit then some do
    if matters then return .number (← number)
    else
      numeral false
      return .null
  else none

/-! ## Values that do not matter -/

/-- The bracket that closes. -/
def close : Bracket → Char
  | .array => ']'
  | .object => '}'

/-- The colon behind a key. -/
def colon : Inspection Unit := do
  if (← next (.ended (.inside .object))) = ':' then skip else ahead .noColon

/-- A key that does not matter, with its colon. -/
def otherKey : Inspection Unit := do
  if (← next (.ended (.inside .object))) = '"' then
    skip
    discard (string false)
    colon
  else ahead .noKey

mutual
/-- A value inside of open brackets, the innermost first, and all behind it up to the last one that
closes. The first argument bounds the number of steps. -/
def valueIn : Nat → List Bracket → Inspection Unit
  | 0, _ => ahead .noValue
  | fuel + 1, opened => do
    let c ← next (.ended .value)
    match scalar? false c with
    | some v =>
      discard v
      restOf fuel opened true
    | none =>
      if c = '[' then
        skip
        restOf fuel (.array :: opened) false
      else if c = '{' then
        skip
        restOf fuel (.object :: opened) false
      else ahead .noValue

/-- What is behind a value, or behind the innermost bracket that opens. -/
def restOf : Nat → List Bracket → Bool → Inspection Unit
  | _, [], _ => return
  | 0, _, _ => ahead .noValue
  | fuel + 1, b :: opened, behindValue => do
    let c ← next (.ended (.inside b))
    if c = close b then
      skip
      restOf fuel opened true
    else if behindValue ∧ c ≠ ',' then ahead (.noComma b)
    else
      if behindValue then skip
      if b = .object then otherKey
      valueIn fuel (b :: opened)
end

/-- Any value. -/
def anyValue : Inspection Unit := do
  valueIn (2 * (← get).length + 2) []

/-! ## Records -/

/-- A value that begins with a character and is not what is wanted. -/
def wrong {α : Type} (wanted : String) (c : Char) : Inspection α := do
  match scalar? true c with
  | some v => here (.wrongType (← v).description wanted)
  | none =>
    if c = '[' then here (.wrongType (Json.array []).description wanted)
    else if c = '{' then here (.wrongType (Json.object []).description wanted)
    else ahead .noValue

/-- A text, which may be refused with words of its own. -/
def text (wanted : String) (refusal : String → Option String) : Inspection Unit := do
  let c ← next (.ended .value)
  if c = '"' then
    skip
    match refusal (← string true) with
    | some words => here (.refused words)
    | none => return
  else wrong wanted c

/-- A natural number below a limit. -/
def natural (wanted : String) (limit : Nat) : Inspection Unit := do
  let c ← next (.ended .value)
  if c = '-' ∨ c.isDigit then
    let n ← number
    match n with
    | .int i =>
      if i < 0 ∨ (limit : Int) ≤ i then here (.wrongValue (Json.number n).description wanted)
    | .float _ => here (.wrongType (Json.number n).description wanted)
  else wrong wanted c

/-- A field of a record: its name, and what its value has to be. -/
abbrev Field := String × Inspection Unit

/-- Whether a member follows; of that, the opening quote of its key is taken. -/
def another (first : Bool) : Inspection Bool := do
  let c ← next (.ended (.inside .object))
  if c = '}' then return false
  if ¬first then
    if c = ',' then skip else ahead (.noComma .object)
  match ← next (.ended .value) with
  | '"' =>
    skip
    return true
  | '}' => ahead .lastComma
  | _ => ahead .noKey

/-- The members of a record, some of which have been seen. The first argument bounds their number. -/
def members (fields : List Field) : Nat → Bool → List String → Inspection Unit
  | 0, _, _ => ahead .noKey
  | fuel + 1, first, seen => do
    if ← another first then
      let key ← string true
      match fields.find? fun f => f.1 = key with
      | some (name, value) =>
        if name ∈ seen then
          blank
          discard (accept '}')
          here (.repeatedField name)
        colon
        value
      | none =>
        colon
        anyValue
      members fields fuel false (key :: seen)
    else
      skip
      match fields.find? fun f => f.1 ∉ seen with
      | some (name, _) => here (.missingField name)
      | none => return

/-- The values of a record in order, some of which have been counted. -/
def items (wanted : String) : List (Inspection Unit) → Nat → Inspection Unit
  | [], _ => do
    match ← next (.ended (.inside .array)) with
    | ']' => skip
    | ',' =>
      skip
      blank
      ahead (if (← peek) = some ']' then .lastComma else .trailing)
    | _ => ahead .trailing
  | value :: values, count => do
    let c ← next (.ended (.inside .array))
    if c = ']' then
      skip
      here (.tooFew count wanted)
    if 0 < count then
      if c = ',' then skip else ahead (.noComma .array)
      if (← next (.ended .value)) = ']' then ahead .lastComma
    value
    items wanted values (count + 1)

/-- A record: an object in which each field stands once, or a list of the values. -/
def record (wanted : String) (fields : List Field) : Inspection Unit := do
  let c ← next (.ended .value)
  if c = '{' then
    skip
    members fields ((← get).length + 1) true []
  else if c = '[' then
    skip
    items s!"{wanted} with {fields.length} elements" (fields.map (·.2)) 0
  else wrong wanted c

/-- The first fault of bytes that should hold one thing and nothing else. -/
def fault? (i : Inspection Unit) (bytes : ByteArray) : Option Fault :=
  let all := bytes.data.toList
  let run : Inspection Unit := do
    i
    blank
    if (← get) ≠ [] then ahead .trailing
  match run.run all with
  | .ok _ => none
  | .error (flaw, unseen) => some (Fault.behind flaw (all.take (all.length - unseen)))

end Inspection

end ClusterLedger.Json
