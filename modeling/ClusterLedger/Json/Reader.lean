import ClusterLedger.Json.Token

/-!
# Reading JSON

The tokens are read one by one by a stack machine whose stack holds the arrays and objects that are
still open, so the height of the stack is the depth of nesting.
-/
namespace ClusterLedger.Json

/-- An open array or object, its parts in reverse; an `entry` waits for the value of its key. -/
inductive Frame where
  | array (items : List Json)
  | object (members : List (String × Json))
  | entry (members : List (String × Json)) (key : String)
  deriving DecidableEq, Repr

/-- What may stand next. -/
inductive Expected where
  | value
  | firstItem
  | nextItem
  | firstKey
  | key
  | colon (key : String)
  | nextMember
  | nothing (value : Json)
  deriving DecidableEq, Repr

/-- The open arrays and objects, the innermost first, and what may stand next. -/
structure Reader where
  stack : List Frame
  expected : Expected
  deriving DecidableEq, Repr

/-- A value is complete: it becomes a part of the innermost open array or object. -/
def complete? (v : Json) : List Frame → Option Reader
  | [] => some ⟨[], .nothing v⟩
  | .array items :: stack => some ⟨.array (v :: items) :: stack, .nextItem⟩
  | .entry members k :: stack => some ⟨.object ((k, v) :: members) :: stack, .nextMember⟩
  | .object _ :: _ => none

/-- A value begins; a token without a value begins none. -/
def begin? (limit : Nat) (stack : List Frame) : Token → Option Reader
  | .openArray => if stack.length < limit then some ⟨.array [] :: stack, .firstItem⟩ else none
  | .openObject => if stack.length < limit then some ⟨.object [] :: stack, .firstKey⟩ else none
  | .null => complete? .null stack
  | .bool b => complete? (.bool b) stack
  | .number (some n) => complete? (.number n) stack
  | .string (some s) => complete? (.string s) stack
  | _ => none

/-- The innermost array or object ends. -/
def close? : List Frame → Option Reader
  | .array items :: stack => complete? (.array items.reverse) stack
  | .object members :: stack => complete? (.object members.reverse) stack
  | _ => none

/-- One token. -/
def Reader.step? (limit : Nat) (r : Reader) (t : Token) : Option Reader :=
  match r.expected, t with
  | .value, t => begin? limit r.stack t
  | .firstItem, .closeArray => close? r.stack
  | .firstItem, t => begin? limit r.stack t
  | .nextItem, .comma => some ⟨r.stack, .value⟩
  | .nextItem, .closeArray => close? r.stack
  | .firstKey, .closeObject => close? r.stack
  | .firstKey, .string (some k) => some ⟨r.stack, .colon k⟩
  | .key, .string (some k) => some ⟨r.stack, .colon k⟩
  | .colon k, .colon => match r.stack with
    | .object members :: stack => some ⟨.entry members k :: stack, .value⟩
    | _ => none
  | .nextMember, .comma => some ⟨r.stack, .key⟩
  | .nextMember, .closeObject => close? r.stack
  | _, _ => none

/-- The value once the tokens have ended. -/
def Reader.finish? (r : Reader) : Option Json :=
  match r.expected with
  | .nothing v => some v
  | _ => none

/-- The value that tokens spell, with at most `limit` arrays and objects inside each other. -/
def ofTokens? (limit : Nat) (ts : List Token) : Option Json :=
  (ts.foldlM (Reader.step? limit) ⟨[], .value⟩).bind Reader.finish?

/-- The depth of nesting that is read. -/
def maxDepth : Nat := 127

/-- The value that a text spells, its members in the order written. -/
def parse? (limit : Nat) (cs : List Char) : Option Json :=
  (tokens? cs).bind (ofTokens? limit)

/-- The canonical value that a text spells. -/
def read? (s : String) : Option Json :=
  (parse? maxDepth s.toList).map canonical

/-- The value that bytes spell, its members in the order written. -/
def parseBytes? (bytes : ByteArray) : Option Json :=
  (String.fromUTF8? bytes).bind fun s => parse? maxDepth s.toList

/-- The canonical value that bytes spell. -/
def readBytes? (bytes : ByteArray) : Option Json :=
  (parseBytes? bytes).map canonical

end ClusterLedger.Json
