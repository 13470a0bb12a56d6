import ClusterLedger.Json.Inspection
import ClusterLedger.Json.Members
import ClusterLedger.Lock.Instant

/-!
# Lock records

Whoever holds the lock of a target has a record stored beside its state. The token alone tells two
records apart.
-/
namespace ClusterLedger

/-- Who holds a lock, and since when. -/
structure Lock where
  holder : String
  pid : UInt32
  token : String
  acquiredAt : Instant
  deriving DecidableEq, Repr, Inhabited

/-- One who takes locks, at one reading of the clock: `token i` is the token of the `i`-th record
that it writes then. -/
structure Caller where
  holder : String
  pid : UInt32
  now : Instant
  token : Nat → String

/-- The `i`-th record that a caller writes. -/
def Caller.lock (c : Caller) (i : Nat) : Lock :=
  ⟨c.holder, c.pid, c.token i, c.now⟩

/-! ## The records of a process -/

/-- Whether the nanoseconds since the beginning of 1970 fit into 64 bits. -/
def Instant.isCounted (t : Instant) : Bool :=
  -0x8000000000000000 ≤ t.total ∧ t.total < 0x8000000000000000

/-- The token of a record: who writes it, when, and which of the records of the process it is. An
instant that is not counted is written like the first one. -/
def Lock.tokenText (holder : String) (pid : UInt32) (now : Instant) (number : Nat) : String :=
  let nanos := if now.isCounted then now.total else 0
  holder ++ "-" ++ String.ofList (Text.digits pid.toNat) ++ "-" ++
    String.ofList (Json.intChars nanos) ++ "-" ++ String.ofList (Text.digits number)

/-- The record with this number among those that a process writes. -/
def Lock.issue (holder : String) (pid : UInt32) (now : Instant) (number : Nat) : Lock :=
  ⟨holder, pid, Lock.tokenText holder pid now number, now⟩

/-- A process that has written so many records before. -/
def Caller.ofProcess (holder : String) (pid : UInt32) (now : Instant) (written : Nat) : Caller :=
  ⟨holder, pid, now, fun i => (Lock.issue holder pid now (written + i)).token⟩

namespace Lock

/-- Whether a record is so old that its holder is taken to be gone. -/
def isStale (l : Lock) (now : Instant) (staleAfter : Nat) : Bool :=
  l.acquiredAt.isOlder now staleAfter

/-! ## The stored form -/

def toJson (l : Lock) : Json :=
  .object [("holder", .string l.holder), ("pid", .ofNat l.pid.toNat), ("token", .string l.token),
    ("acquired_at", .string l.acquiredAt.stamp)]

/-- The record as it is stored. -/
def toBytes (l : Lock) : ByteArray :=
  (l.toJson.pretty "  ").toUTF8

/-- A process identifier. -/
def pid? : Json → Option UInt32
  | .number (.int n) => if 0 ≤ n ∧ n < 0x100000000 then some (UInt32.ofNat n.toNat) else none
  | _ => none

/-- A record from the values of its four fields. -/
def ofValues? (holder pid token acquiredAt : Json) : Option Lock := do
  return ⟨← holder.text?, ← pid? pid, ← token.text?, ← acquiredAt.text?.bind Instant.read?⟩

/-- The record that members describe: each field stands there once, and whatever else does not
matter. -/
def ofMembers? (members : List Json.Member) : Option Lock := do
  ofValues? (← Json.onlyMember? members "holder") (← Json.onlyMember? members "pid")
    (← Json.onlyMember? members "token") (← Json.onlyMember? members "acquired_at")

/-- The record that an object, or a list of the four values, describes. -/
def ofTokens? (ts : List Json.Token) : Option Lock :=
  match Json.members? ts with
  | some members => ofMembers? members
  | none => match Json.ofTokens? Json.maxDepth ts with
    | some (.array [holder, pid, token, acquiredAt]) => ofValues? holder pid token acquiredAt
    | _ => none

/-- The record that stored bytes hold. -/
def ofBytes? (bytes : ByteArray) : Option Lock :=
  (Json.tokensOfBytes? bytes).bind ofTokens?

/-! ## Records that cannot be read -/

/-- The fields of a record, in order. -/
def fields : List Json.Inspection.Field :=
  let text := Json.Inspection.text "a string" fun _ => none
  let time := Json.Inspection.text "an RFC 3339 formatted date and time string" fun s =>
    match Instant.read s with
    | .ok _ => none
    | .error flaw => some flaw.message
  [("holder", text), ("pid", Json.Inspection.natural "u32" 0x100000000), ("token", text),
    ("acquired_at", time)]

/-- What is wrong with bytes that hold no record. -/
def fault (bytes : ByteArray) : Json.Fault :=
  (Json.Inspection.fault? (Json.Inspection.record "struct LockInfo" fields) bytes).getD
    (Json.Fault.behind .noValue [])

end Lock

end ClusterLedger
