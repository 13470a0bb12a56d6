import ClusterLedger.Text.Affix
import ClusterLedger.Text.Digits

/-!
# Hostnames for new nodes

A single node keeps the requested name when it is free. Otherwise the nodes are numbered upwards
from the greatest number in use, so a number that became free is not used again.
-/
namespace ClusterLedger.Hostname

/-- A host name with a number behind it. -/
def numbered (base : String) (n : Nat) : String :=
  base ++ "-" ++ String.ofList (Text.digits n)

/-- The number of a numbered host: positive, without leading zeros and of 64 bits. -/
def number? (base name : String) : Option Nat :=
  (Text.after? base name).bind fun s =>
  (Text.after? "-" s).bind fun s =>
    match s.toList with
    | '0' :: _ => none
    | cs => (Text.digits? cs).filter (· < Text.wordLimit)

/-- The greatest number in use behind `base`, or zero. -/
def greatest (base : String) (existing : List String) : Nat :=
  (existing.filterMap (number? base)).foldl max 0

/-- The names of `count` new nodes. -/
def fresh (existing : List String) (base : String) (count : Nat) : List String :=
  if count = 1 ∧ base ∉ existing then [base]
  else (List.range count).map fun i => numbered base (greatest base existing + 1 + i)

end ClusterLedger.Hostname
