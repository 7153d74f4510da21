namespace FullTextQuery.Text

/-!
# UTF-8

The bytes of a text, and the text of arbitrary bytes.  Every maximal beginning
of a well-formed sequence that does not become one is replaced by one
replacement character.
-/

/-- The UTF-8 bytes of a character. -/
def utf8Bytes
    (c : Char) :
    List UInt8 :=
  let n := c.toNat
  if n < 0x80 then
    [UInt8.ofNat n]
  else if n < 0x800 then
    [UInt8.ofNat (0xC0 + n / 0x40), UInt8.ofNat (0x80 + n % 0x40)]
  else if n < 0x10000 then
    [UInt8.ofNat (0xE0 + n / 0x1000), UInt8.ofNat (0x80 + n / 0x40 % 0x40),
      UInt8.ofNat (0x80 + n % 0x40)]
  else
    [UInt8.ofNat (0xF0 + n / 0x40000), UInt8.ofNat (0x80 + n / 0x1000 % 0x40),
      UInt8.ofNat (0x80 + n / 0x40 % 0x40), UInt8.ofNat (0x80 + n % 0x40)]

/-- The UTF-8 bytes of a text. -/
def encodeUtf8
    (cs : List Char) :
    List UInt8 :=
  cs.flatMap utf8Bytes

/--
What a leading byte asks for: its own bits, the number of bytes that follow, and
the range in which the first of them must lie.
-/
def leadingByte?
    (b : UInt8) :
    Option (Nat × Nat × UInt8 × UInt8) :=
  if 0xC2 ≤ b ∧ b ≤ 0xDF then some (b.toNat - 0xC0, 1, 0x80, 0xBF)
  else if b = 0xE0 then some (0, 2, 0xA0, 0xBF)
  else if b = 0xED then some (0xD, 2, 0x80, 0x9F)
  else if 0xE1 ≤ b ∧ b ≤ 0xEF then some (b.toNat - 0xE0, 2, 0x80, 0xBF)
  else if b = 0xF0 then some (0, 3, 0x90, 0xBF)
  else if b = 0xF4 then some (4, 3, 0x80, 0x8F)
  else if 0xF1 ≤ b ∧ b ≤ 0xF3 then some (b.toNat - 0xF0, 3, 0x80, 0xBF)
  else none

/-- The character that takes the place of an ill-formed sequence. -/
def replacement : Char :=
  '\uFFFD'

/--
The text of some bytes, where `pending` holds a sequence that has begun: the
bits so far, the number of bytes still needed, and the range of the next one.
-/
def decodeFrom :
    Option (Nat × Nat × UInt8 × UInt8) → List UInt8 → List Char
  | none, [] => []
  | some _, [] => [replacement]
  | none, b :: rest =>
      if b < 0x80 then
        Char.ofNat b.toNat :: decodeFrom none rest
      else
        match leadingByte? b with
        | some pending => decodeFrom (some pending) rest
        | none => replacement :: decodeFrom none rest
  | some (bits, needed, low, high), b :: rest =>
      if low ≤ b ∧ b ≤ high then
        let bits := bits * 0x40 + (b.toNat - 0x80)
        if needed ≤ 1 then
          Char.ofNat bits :: decodeFrom none rest
        else
          decodeFrom (some (bits, needed - 1, 0x80, 0xBF)) rest
      else if b < 0x80 then
        replacement :: Char.ofNat b.toNat :: decodeFrom none rest
      else
        match leadingByte? b with
        | some pending => replacement :: decodeFrom (some pending) rest
        | none => replacement :: replacement :: decodeFrom none rest

/-- The text of some bytes, ill-formed sequences replaced. -/
def decodeUtf8Lossy
    (bytes : List UInt8) :
    String :=
  String.ofList (decodeFrom none bytes)

end FullTextQuery.Text
