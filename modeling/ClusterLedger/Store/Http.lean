import ClusterLedger.Http.Exchange
import ClusterLedger.Json.Members
import ClusterLedger.Store.Basic
import ClusterLedger.Text.Blank
import ClusterLedger.Text.Utf8

/-!
# A store behind HTTP

Objects stand at the base address followed by their key. A folder is listed by a request for its
key, which ends in a slash; the answer has one JSON value per line. Writing only what is absent asks
the server for `If-None-Match: *`, and removing only what was read asks for `If-Match`.
-/
namespace ClusterLedger.Store

open ClusterLedger.Http (Response)

/-- Where the objects are, and the token that opens the place. -/
structure Endpoint where
  baseUrl : String
  token : Option String
  deriving DecidableEq, Repr

namespace Endpoint

/-- The place below an address, which may end in slashes. -/
def ofUrl (url : String) (token : Option String) : Endpoint :=
  ⟨Text.trimEnd '/' url, token⟩

/-- The address of an object. -/
def url (e : Endpoint) (key : String) : String :=
  e.baseUrl ++ "/" ++ Text.trimStart '/' key

/-- A request for an object, without conditions. -/
def request (e : Endpoint) (method : Http.Method) (key : String) : Http.Request where
  method
  url := e.url key
  authorization := e.token.map ("Bearer " ++ ·)

/-! ## Listings -/

/-- The kind that a value names, as a text or as the only member of an object. -/
def kind? : Json → Option EntryKind
  | .string "object" | .object [("object", .null)] => some .object
  | .string "directory" | .object [("directory", .null)] => some .folder
  | _ => none

/-- The entry of a listing that a name and a kind describe. -/
def entry? (name kind : Json) : Option Listed := do
  return ⟨← name.text?, ← kind? kind⟩

/-- The entry of a listing that an object, in which other members do not matter, or a list of the two
values describes. -/
def listed? (ts : List Json.Token) : Option Listed :=
  match Json.members? ts with
  | some members => do
    entry? (← Json.onlyMember? members "name") (← Json.onlyMember? members "type")
  | none => match Json.ofTokens? Json.maxDepth ts with
    | some (.array [name, kind]) => entry? name kind
    | _ => none

/-- The body as text; a mark of the byte order in front is no part of it. -/
def bodyText (body : ByteArray) : String :=
  match (Text.lossy body.data.toList).toList with
  | '\uFEFF' :: cs => String.ofList cs
  | cs => String.ofList cs

/-- One line of a listing. -/
def readLine (line : String) : Result Listed :=
  match (Json.tokens? line.toList).bind listed? with
  | some entry => .ok entry
  | none => .error (.store (.listing line))

/-- The entries of a listing, one per line that is not blank. -/
def readListing (body : String) : Result (List Listed) :=
  (((Text.segments '\n' body).map Text.trim).filter (· ≠ "")).mapM readLine

/-! ## The operations -/

/-- Sends a request; without an answer the attempt ends. -/
def send (r : Http.Request) : Attempt Http.effects Response := do
  match ← Attempt.request (E := Http.effects) r with
  | some response => return response
  | none => throw .http

/-- The whole body of an answer. -/
def whole (r : Response) : Attempt Http.effects ByteArray :=
  match r.body with
  | some bytes => return bytes
  | none => throw .http

/-- The error for an answer that is none to the request. -/
def refused (q : Http.Request) (r : Response) : Error :=
  .store (.status q.method.word q.url r.statusLine)

def get (e : Endpoint) (key : String) : Attempt Http.effects (Option ByteArray) := do
  let q := e.request .get key
  let r ← send q
  if r.status = 404 then return none
  else if r.isSuccess then return some (← whole r)
  else throw (refused q r)

def put (e : Endpoint) (key : String) (bytes : ByteArray) : Attempt Http.effects Unit := do
  let q := { e.request .put key with body := some bytes }
  let r ← send q
  if ¬r.isSuccess then throw (refused q r)

def putIfAbsent (e : Endpoint) (key : String) (bytes : ByteArray) : Attempt Http.effects Bool := do
  let q := { e.request .put key with ifNoneMatch := some "*", body := some bytes }
  let r ← send q
  if r.status = 412 then return false
  else if r.isSuccess then return true
  else throw (refused q r)

def delete (e : Endpoint) (key : String) : Attempt Http.effects Unit := do
  let q := e.request .delete key
  let r ← send q
  if r.status ≠ 404 ∧ ¬r.isSuccess then throw (refused q r)

/-- Removes the version of an object that was just read. -/
def deleteVersion (e : Endpoint) (key : String) (version : Option String) :
    Attempt Http.effects Bool := do
  let q := { e.request .delete key with ifMatch := version }
  let r ← send q
  if r.status = 412 ∨ r.status = 404 then return false
  else if r.isSuccess then return true
  else throw (refused q r)

/-- Reads the object and removes the version that it read, if it holds what is expected. -/
def deleteIfMatches (e : Endpoint) (key : String) (expected : ByteArray) :
    Attempt Http.effects Bool := do
  let q := e.request .get key
  let r ← send q
  if r.status = 404 then return false
  else if ¬r.isSuccess then throw (refused q r)
  else if (← whole r) ≠ expected then return false
  else e.deleteVersion key r.version?

def list (e : Endpoint) (path : String) : Attempt Http.effects (List Listed) := do
  let q := e.request .get (folderKey path)
  let r ← send q
  if r.status = 404 then return []
  else if ¬r.isSuccess then throw (refused q r)
  else Attempt.ofResult (readListing (bodyText (← whole r)))

def contains (e : Endpoint) (key : String) : Attempt Http.effects Bool := do
  let q := e.request .head key
  let r ← send q
  if r.status = 404 then return false
  else if r.isSuccess then return true
  else throw (refused q r)

/-- Carries out what is asked of the store. -/
def perform (e : Endpoint) : (r : Request) → Attempt Http.effects r.Yield
  | .get key => e.get key
  | .put key bytes => e.put key bytes
  | .putIfAbsent key bytes => e.putIfAbsent key bytes
  | .delete key => e.delete key
  | .deleteIfMatches key expected => e.deleteIfMatches key expected
  | .list path => e.list path
  | .contains key => e.contains key

end Endpoint

end ClusterLedger.Store
