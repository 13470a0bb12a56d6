import ClusterLedger.Text.Affix

/-!
# Character classes

White space is the Unicode property `White_Space`, control characters are the general category
`Cc`; both sets are closed under the standard's stability rules.
-/
namespace ClusterLedger.Text

/-- The Unicode property `White_Space`. -/
def isBlank (c : Char) : Bool :=
  let n := c.toNat
  (9 ≤ n && n ≤ 13) || n == 0x20 || n == 0x85 || n == 0xA0 || n == 0x1680
    || (0x2000 ≤ n && n ≤ 0x200A) || n == 0x2028 || n == 0x2029 || n == 0x202F
    || n == 0x205F || n == 0x3000

/-- The Unicode general category `Cc`. -/
def isControl (c : Char) : Bool :=
  c.toNat < 0x20 || (0x7F ≤ c.toNat && c.toNat ≤ 0x9F)

/-- Leaves out white space at both ends. -/
def trim (s : String) : String :=
  String.ofList (dropEnds isBlank s.toList)

/-- Whether there is nothing but white space. -/
def blank (s : String) : Bool :=
  s.toList.all isBlank

/-- Letters and digits of ASCII. -/
def isAsciiAlphanumeric (c : Char) : Bool :=
  c.isAlphanum

end ClusterLedger.Text
