/-!
# Decoding bytes as UTF-8

Any bytes are decoded: every maximal part that begins no character is one mistake, which a text
shows as U+FFFD. A decoder state is what has been read of an unfinished character.
-/
namespace ClusterLedger.Text

/-- An unfinished character: the bytes still missing, the bits read, and the range of the next byte. -/
structure Unfinished where
  missing : Nat
  bits : Nat
  least : UInt8
  greatest : UInt8

/-- What replaces bytes that are no character. -/
def replacement : Char := '\uFFFD'

/-- Reads a byte at the start of a character; a mistake is no character. -/
def leadByte (b : UInt8) : List (Option Char) × Option Unfinished :=
  let n := b.toNat
  if n < 0x80 then ([some (Char.ofNat n)], none)
  else if 0xC2 ≤ n ∧ n ≤ 0xDF then ([], some ⟨1, n - 0xC0, 0x80, 0xBF⟩)
  else if n = 0xE0 then ([], some ⟨2, 0, 0xA0, 0xBF⟩)
  else if n = 0xED then ([], some ⟨2, 0xD, 0x80, 0x9F⟩)
  else if 0xE1 ≤ n ∧ n ≤ 0xEF then ([], some ⟨2, n - 0xE0, 0x80, 0xBF⟩)
  else if n = 0xF0 then ([], some ⟨3, 0, 0x90, 0xBF⟩)
  else if 0xF1 ≤ n ∧ n ≤ 0xF3 then ([], some ⟨3, n - 0xF0, 0x80, 0xBF⟩)
  else if n = 0xF4 then ([], some ⟨3, 4, 0x80, 0x8F⟩)
  else ([none], none)

/-- Reads one byte: the characters and mistakes that it finishes, and what is unfinished after it. -/
def nextByte (b : UInt8) : Option Unfinished → List (Option Char) × Option Unfinished
  | none => leadByte b
  | some u =>
    if u.least ≤ b ∧ b ≤ u.greatest then
      let bits := u.bits * 64 + (b.toNat - 0x80)
      if u.missing = 1 then ([some (Char.ofNat bits)], none)
      else ([], some ⟨u.missing - 1, bits, 0x80, 0xBF⟩)
    else
      let (cs, next) := leadByte b
      (none :: cs, next)

/-- Decodes the bytes that follow an unfinished character. -/
def lettersFrom (u : Option Unfinished) : List UInt8 → List (Option Char)
  | [] => if u.isSome then [none] else []
  | b :: bs =>
    let (cs, next) := nextByte b u
    cs ++ lettersFrom next bs

/-- Decodes bytes, with U+FFFD for each mistake. -/
def lossy (bytes : List UInt8) : String :=
  String.ofList ((lettersFrom none bytes).map (·.getD replacement))

/-- The text that the bytes encode, when they are UTF-8. -/
def utf8? (bytes : ByteArray) : Option String :=
  String.fromUTF8? bytes

/-- The characters that the bytes encode; where they are not UTF-8, `none` for each mistake. -/
def letters (bytes : ByteArray) : List (Option Char) :=
  match utf8? bytes with
  | some s => s.toList.map some
  | none => lettersFrom none bytes.data.toList

end ClusterLedger.Text
