import ClusterLedger.Json.Reader

/-!
# The members of an object

An object can be taken apart without reading the values in it: it only has to have the form of one.
What its members hold may be nested as deeply as it likes, and its tokens may have no value.
-/
namespace ClusterLedger.Json

/-- What may stand next. -/
inductive Need where
  | value
  | firstItem
  | nextItem
  | firstKey
  | key
  | colon
  | nextMember
  | nothing
  deriving DecidableEq, Repr

/-- A place in a text of the right form: the open brackets, the innermost first, and what may stand
next. -/
structure Walk where
  opened : List Bracket
  need : Need
  deriving DecidableEq, Repr

/-- The place behind a value. -/
def Walk.behind : List Bracket → Walk
  | [] => ⟨[], .nothing⟩
  | .array :: opened => ⟨.array :: opened, .nextItem⟩
  | .object :: opened => ⟨.object :: opened, .nextMember⟩

/-- A value begins. -/
def Walk.begin? (opened : List Bracket) : Token → Option Walk
  | .openArray => some ⟨.array :: opened, .firstItem⟩
  | .openObject => some ⟨.object :: opened, .firstKey⟩
  | .null | .bool _ | .number _ | .string _ => some (behind opened)
  | _ => none

/-- One token. -/
def Walk.step? (w : Walk) (t : Token) : Option Walk :=
  match w.need, t with
  | .value, t => begin? w.opened t
  | .firstItem, .closeArray => some (behind w.opened.tail)
  | .firstItem, t => begin? w.opened t
  | .nextItem, .comma => some ⟨w.opened, .value⟩
  | .nextItem, .closeArray => some (behind w.opened.tail)
  | .firstKey, .closeObject => some (behind w.opened.tail)
  | .firstKey, .string _ => some ⟨w.opened, .colon⟩
  | .key, .string _ => some ⟨w.opened, .colon⟩
  | .colon, .colon => some ⟨w.opened, .value⟩
  | .nextMember, .comma => some ⟨w.opened, .key⟩
  | .nextMember, .closeObject => some (behind w.opened.tail)
  | _, _ => none

/-- A key and the tokens of its value. -/
abbrev Member := String × List Token

/-- A place in an object, and the members so far, the last one first and their tokens in reverse. -/
structure Parts where
  walk : Walk
  members : List Member
  deriving DecidableEq, Repr

/-- The members with one more token, if it belongs to one of them. A key has to be a text. -/
def Parts.take? (p : Parts) (t : Token) : Option (List Member) :=
  match p.walk.opened, p.walk.need, t, p.members with
  | [], .value, .openObject, members => some members
  | [.object], .firstKey, .string k, members | [.object], .key, .string k, members =>
    k.map fun k => (k, []) :: members
  | [.object], .value, t, (k, ts) :: members => some ((k, t :: ts) :: members)
  | [.object], _, _, members => some members
  | _ :: _ :: _, _, t, (k, ts) :: members => some ((k, t :: ts) :: members)
  | _, _, _, _ => none

/-- One token. -/
def Parts.step? (p : Parts) (t : Token) : Option Parts := do
  return ⟨← p.walk.step? t, ← p.take? t⟩

/-- The members of the object that tokens spell, in the order written. -/
def members? (ts : List Token) : Option (List Member) := do
  let p ← ts.foldlM Parts.step? ⟨⟨[], .value⟩, []⟩
  if p.walk.need = .nothing then
    return (p.members.map fun m => (m.1, m.2.reverse)).reverse
  else none

/-- The value of the only member of that key. -/
def onlyMember? (members : List Member) (key : String) : Option Json :=
  match members.filter fun m => m.1 = key with
  | [(_, ts)] => ofTokens? maxDepth ts
  | _ => none

end ClusterLedger.Json
