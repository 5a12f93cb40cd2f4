namespace Signpost.Text

def encodeChar (c : Char) : List UInt8 :=
  let n := c.toNat
  if n < 0x80 then [n.toUInt8]
  else if n < 0x800 then [(0xc0 + n / 64).toUInt8, (0x80 + n % 64).toUInt8]
  else if n < 0x10000 then
    [(0xe0 + n / 4096).toUInt8, (0x80 + n / 64 % 64).toUInt8, (0x80 + n % 64).toUInt8]
  else
    [(0xf0 + n / 262144).toUInt8, (0x80 + n / 4096 % 64).toUInt8,
      (0x80 + n / 64 % 64).toUInt8, (0x80 + n % 64).toUInt8]

def encodeUtf8 (text : List Char) : List UInt8 :=
  text.flatMap encodeChar

/-- What the first byte of a character announces: the number of bytes that follow, the
bounds of the second byte, and the bits that the first byte contributes. -/
structure Lead where
  following : Nat
  low : UInt8
  high : UInt8
  bits : Nat

def Lead.ofByte? (b : UInt8) : Option Lead :=
  if b < 0x80 then some ⟨0, 0x80, 0xbf, b.toNat⟩
  else if b < 0xc2 then none
  else if b < 0xe0 then some ⟨1, 0x80, 0xbf, b.toNat - 0xc0⟩
  else if b = 0xe0 then some ⟨2, 0xa0, 0xbf, 0⟩
  else if b = 0xed then some ⟨2, 0x80, 0x9f, 13⟩
  else if b < 0xf0 then some ⟨2, 0x80, 0xbf, b.toNat - 0xe0⟩
  else if b = 0xf0 then some ⟨3, 0x90, 0xbf, 0⟩
  else if b < 0xf4 then some ⟨3, 0x80, 0xbf, b.toNat - 0xf0⟩
  else if b = 0xf4 then some ⟨3, 0x80, 0x8f, 4⟩
  else none

/-- Reads the bytes that continue a character.  The result holds the code point, absent if
a byte is missing or out of bounds, and the number of bytes that did continue it. -/
def continueChar (low high : UInt8) : Nat → Nat → List UInt8 → Option Nat × Nat
  | 0, bits, _ => (some bits, 0)
  | _ + 1, _, [] => (none, 0)
  | following + 1, bits, b :: rest =>
      if low ≤ b ∧ b ≤ high then
        let (code, used) :=
          continueChar 0x80 0xbf following (bits * 64 + (b.toNat - 0x80)) rest
        (code, used + 1)
      else (none, 0)

/-- Reads one character, or `none` for bytes that form none, and how many bytes after the
first belong to it. -/
def decodeChar (first : UInt8) (rest : List UInt8) : Option Char × Nat :=
  match Lead.ofByte? first with
  | none => (none, 0)
  | some lead =>
      let (code, used) := continueChar lead.low lead.high lead.following lead.bits rest
      (code.map Char.ofNat, used)

/-- The characters in order, with `none` where bytes form no character.  The first argument
counts the bytes that belong to the character last read. -/
def decodeFrom : Nat → List UInt8 → List (Option Char)
  | _, [] => []
  | pending + 1, _ :: rest => decodeFrom pending rest
  | 0, first :: rest =>
      let (char, used) := decodeChar first rest
      char :: decodeFrom used rest

def decodeUtf8? (bytes : List UInt8) : Option (List Char) :=
  (decodeFrom 0 bytes).mapM id

def decodeUtf8Lossy (bytes : List UInt8) : List Char :=
  (decodeFrom 0 bytes).map fun char => char.getD '\uFFFD'

end Signpost.Text
