import ClusterLedger.Bytes
import ClusterLedger.Program

/-!
# HTTP exchanges

A request of the few methods that an object store needs, and the answer to it. An exchange is all
that the client does to send one request: where it is sent on to another address, the answer is the
one that the client gives in the end. There may be no answer, or an answer whose body breaks off.
-/
namespace ClusterLedger.Http

inductive Method where
  | get
  | head
  | put
  | delete
  deriving DecidableEq, Repr

/-- The method as it is sent. -/
def Method.word : Method → String
  | get => "GET"
  | head => "HEAD"
  | put => "PUT"
  | delete => "DELETE"

/-- A request with the headers that matter. -/
structure Request where
  method : Method
  url : String
  authorization : Option String := none
  ifMatch : Option String := none
  ifNoneMatch : Option String := none
  body : Option ByteArray := none
  deriving DecidableEq

/-- What the server is asked for by a client that sends the address as it stands: the text in front
of its fragment, which is not sent. A client that parses the address first may also escape characters
and fold segments of dots. -/
def Request.resource (r : Request) : String :=
  String.ofList (r.url.toList.takeWhile (· ≠ '#'))

/-- The answer that the client gives in the end; its body is missing when the connection ended too
early. -/
structure Response where
  status : Nat
  etag : Option String := none
  body : Option ByteArray := some ByteArray.empty
  deriving DecidableEq

/-- The effects of sending requests; there may be no answer. -/
def effects : Effects where
  Request := Request
  Reply _ := Option Response

/-! ## Answers -/

/-- Whether the server did what was asked. -/
def Response.isSuccess (r : Response) : Bool :=
  200 ≤ r.status ∧ r.status < 300

/-- A header value that can be sent back: printable characters of ASCII, blanks and tabs. -/
def isVisible (value : String) : Bool :=
  value.toList.all fun c => c = '\t' ∨ (' ' ≤ c ∧ c ≤ '~')

/-- The mark of the version of an object, when it can be sent back. -/
def Response.version? (r : Response) : Option String :=
  r.etag.filter isVisible

/-- The phrase of a status, from the registry of status codes. -/
def phrase? : Nat → Option String
  | 100 => "Continue"
  | 101 => "Switching Protocols"
  | 102 => "Processing"
  | 200 => "OK"
  | 201 => "Created"
  | 202 => "Accepted"
  | 203 => "Non Authoritative Information"
  | 204 => "No Content"
  | 205 => "Reset Content"
  | 206 => "Partial Content"
  | 207 => "Multi-Status"
  | 208 => "Already Reported"
  | 226 => "IM Used"
  | 300 => "Multiple Choices"
  | 301 => "Moved Permanently"
  | 302 => "Found"
  | 303 => "See Other"
  | 304 => "Not Modified"
  | 305 => "Use Proxy"
  | 307 => "Temporary Redirect"
  | 308 => "Permanent Redirect"
  | 400 => "Bad Request"
  | 401 => "Unauthorized"
  | 402 => "Payment Required"
  | 403 => "Forbidden"
  | 404 => "Not Found"
  | 405 => "Method Not Allowed"
  | 406 => "Not Acceptable"
  | 407 => "Proxy Authentication Required"
  | 408 => "Request Timeout"
  | 409 => "Conflict"
  | 410 => "Gone"
  | 411 => "Length Required"
  | 412 => "Precondition Failed"
  | 413 => "Payload Too Large"
  | 414 => "URI Too Long"
  | 415 => "Unsupported Media Type"
  | 416 => "Range Not Satisfiable"
  | 417 => "Expectation Failed"
  | 418 => "I'm a teapot"
  | 421 => "Misdirected Request"
  | 422 => "Unprocessable Entity"
  | 423 => "Locked"
  | 424 => "Failed Dependency"
  | 425 => "Too Early"
  | 426 => "Upgrade Required"
  | 428 => "Precondition Required"
  | 429 => "Too Many Requests"
  | 431 => "Request Header Fields Too Large"
  | 451 => "Unavailable For Legal Reasons"
  | 500 => "Internal Server Error"
  | 501 => "Not Implemented"
  | 502 => "Bad Gateway"
  | 503 => "Service Unavailable"
  | 504 => "Gateway Timeout"
  | 505 => "HTTP Version Not Supported"
  | 506 => "Variant Also Negotiates"
  | 507 => "Insufficient Storage"
  | 508 => "Loop Detected"
  | 510 => "Not Extended"
  | 511 => "Network Authentication Required"
  | _ => none

/-- The status with its phrase. -/
def Response.statusLine (r : Response) : String :=
  let phrase := (phrase? r.status).getD "<unknown status code>"
  s!"{r.status} {phrase}"

end ClusterLedger.Http
