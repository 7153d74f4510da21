import FullTextQuery.Text.Hexadecimal
import FullTextQuery.Text.Utf8

namespace FullTextQuery.Url

/-!
# Percent encoding

A character that may not stand for itself in some part of a URL is written as
its UTF-8 bytes, each as `%` and two hexadecimal digits.  What is beyond ASCII is
always written so; for ASCII every part has its own set.
-/

/-- A set of ASCII characters that a part of a URL encodes. -/
abbrev EncodeSet : Type :=
  Char → Bool

namespace EncodeSet

/-- Control characters. -/
def control : EncodeSet :=
  fun c => decide (c.toNat < 0x20) || c == '\x7f'

/-- A set and some more characters. -/
def adding
    (set : EncodeSet)
    (more : List Char) :
    EncodeSet :=
  fun c => set c || more.contains c

/-- What a fragment encodes. -/
def fragment : EncodeSet :=
  control.adding [' ', '"', '<', '>', '`']

/-- What a query encodes. -/
def query : EncodeSet :=
  control.adding [' ', '"', '#', '<', '>']

/-- What a query encodes under a special scheme. -/
def specialQuery : EncodeSet :=
  query.adding ['\'']

/-- What a path encodes. -/
def path : EncodeSet :=
  fragment.adding ['#', '?', '\x7b', '\x7d']

/-- What a single path segment encodes, in which a slash is no separator. -/
def segment : EncodeSet :=
  path.adding ['/', '%']

/-- What a single path segment encodes under a special scheme. -/
def specialSegment : EncodeSet :=
  segment.adding ['\\']

/-- What a user name and a password encode. -/
def userInfo : EncodeSet :=
  path.adding ['/', ':', ';', '=', '@', '[', '\\', ']', '^', '|']

/-- What a value in an encoded form encodes: all but letters, digits and four signs. -/
def form : EncodeSet :=
  fun c => !(c.isAlphanum || c == '*' || c == '-' || c == '.' || c == '_')

end EncodeSet

/-- The encoding of a byte. -/
def percentByte
    (b : UInt8) :
    List Char :=
  ['%', Text.upperHexDigit (b.toNat / 16), Text.upperHexDigit (b.toNat % 16)]

/-- The encoding of a character in a part of a URL. -/
def percentChar
    (set : EncodeSet)
    (c : Char) :
    List Char :=
  if c.toNat < 0x80 && !set c then [c] else (Text.utf8Bytes c).flatMap percentByte

/-- The encoding of a text in a part of a URL. -/
def percentEncode
    (set : EncodeSet)
    (cs : List Char) :
    List Char :=
  cs.flatMap (percentChar set)

/-- The bytes of a text in which encoded bytes are decoded; a lone `%` stands for itself. -/
def percentDecode : List Char → List UInt8
  | [] => []
  | '%' :: a :: b :: rest =>
      match Text.hexValue? a, Text.hexValue? b with
      | some high, some low => UInt8.ofNat (high * 16 + low) :: percentDecode rest
      | _, _ => UInt8.ofNat '%'.toNat :: percentDecode (a :: b :: rest)
  | c :: rest => Text.utf8Bytes c ++ percentDecode rest

/-- A value in an encoded form, where a space is written as a plus sign. -/
def formEncode
    (cs : List Char) :
    List Char :=
  cs.flatMap fun c => if c = ' ' then ['+'] else percentChar EncodeSet.form c

end FullTextQuery.Url
