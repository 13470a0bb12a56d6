import ClusterLedger.Document.Basic
import ClusterLedger.Text.Digits

/-!
# Dotted paths

A path is a list of segments; each goes one step into an object or, written in digits, into an
array. A path that leads nowhere is no error.
-/
namespace ClusterLedger

/-- The position that a segment names. -/
def Json.index? (segment : String) : Option Nat :=
  Text.unsigned? Text.wordLimit segment.toList

/-- One step into an object or an array. -/
def Json.step? (segment : String) : Json → Option Json
  | .object members => Entries.get? segment members
  | .array items => (Json.index? segment).bind fun i => items[i]?
  | _ => none

/-- What a list of segments leads to. -/
def Json.navigate : List String → Json → Option Json
  | [], v => some v
  | segment :: rest, v => (v.step? segment).bind (Json.navigate rest)

namespace Document

/-- What a list of segments leads to; the first one chooses the modules or another key. -/
def find? (d : Document) : List String → Option Json
  | [] => none
  | head :: rest =>
    if head = moduleKey then
      match rest with
      | [] => none
      | name :: rest => (d.module? name).bind fun r => (Json.ofFields r).navigate rest
    else (d.extra.get? head).bind (Json.navigate rest)

/-- What a dotted path leads to. -/
def get? (d : Document) (path : String) : Option Json :=
  d.find? (Text.segments '.' path)

/-- The text that a dotted path leads to, or no text at all. -/
def getText (d : Document) (path : String) : String :=
  ((d.get? path).bind Json.text?).getD ""

end Document

end ClusterLedger
