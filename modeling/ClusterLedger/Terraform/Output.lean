import ClusterLedger.Text.Blank
import ClusterLedger.Text.Utf8

/-!
# The output of a tool

Both streams are bytes. Lines are decoded one by one, so bytes that are no text spoil their own line
only. Of the error stream, which can be long, only the last lines are kept while it is read.
-/
namespace ClusterLedger.Terraform

/-- The byte that ends a line. -/
def newline : UInt8 := 10

/-- Leaves out line feeds and carriage returns at the end. -/
def chomp (line : String) : String :=
  String.ofList (Text.dropEnd (fun c => c = '\n' ∨ c = '\r') line.toList)

/-- The text of the bytes of a line. -/
def decodeLine (bytes : List UInt8) : String :=
  chomp (Text.lossy bytes)

/-! ## The end of the error stream -/

/-- How many lines of the error stream are kept. -/
def tailLength : Nat := 20

/-- The last lines that were not blank, the newest one last. -/
@[ext] structure Tail where
  lines : List String
  bounded : lines.length ≤ tailLength

namespace Tail

/-- No lines. -/
def empty : Tail := ⟨[], Nat.zero_le _⟩

/-- Keeps a line that is not blank; the oldest one makes room for it. -/
def push (t : Tail) (line : String) : Tail :=
  if Text.blank line then t
  else if h : t.lines.length = tailLength then
    ⟨t.lines.drop 1 ++ [line], by
      rw [List.length_append, List.length_drop, h]
      exact Nat.le_refl _⟩
  else
    ⟨t.lines ++ [line], by
      rw [List.length_append]
      exact Nat.lt_of_le_of_ne t.bounded h⟩

end Tail

/-- What is kept of a stream so far, and the bytes of its unfinished line, the last one first. -/
structure Listener where
  tail : Tail
  pending : List UInt8

namespace Listener

/-- Nothing has been read. -/
def start : Listener := ⟨.empty, []⟩

/-- Ends the unfinished line. -/
def endLine (l : Listener) : Listener :=
  ⟨l.tail.push (decodeLine l.pending.reverse), []⟩

/-- Reads one byte. -/
def hear (l : Listener) (b : UInt8) : Listener :=
  if b = newline then l.endLine else { l with pending := b :: l.pending }

end Listener

/-! ## Listening to a stream -/

/-- What reading on in a stream yields: its next byte, or a fault of the system. -/
inductive Reading where
  | byte (b : UInt8)
  | fault
  deriving DecidableEq, Repr

/-- Reads on to the end, or to a fault, and keeps nothing; what is left is not read. -/
def drain : List Reading → List Reading
  | [] => []
  | .byte _ :: rest => drain rest
  | .fault :: rest => rest

/-- Reads a stream to its end; what is left is not read. A fault ends the listening in the middle of
a line, but the stream is drained, so that the tool never waits for somebody to read. -/
def Listener.listen (l : Listener) : List Reading → Tail × List Reading
  | [] => (l.endLine.tail, [])
  | .byte b :: rest => (l.hear b).listen rest
  | .fault :: rest => (l.tail, drain rest)

/-- The last lines of a stream that are not blank. -/
def tail (bytes : ByteArray) : List String :=
  (Listener.start.listen (bytes.data.toList.map .byte)).1.lines

/-! ## The version -/

/-- The first line of a stream; a carriage return before the line feed is no part of it. -/
def firstLine (bytes : ByteArray) : String :=
  let s := Text.lossy bytes.data.toList
  match Text.cut? '\n' s with
  | some (line, _) => (Text.before? "\r" line).getD line
  | none => s

end ClusterLedger.Terraform
