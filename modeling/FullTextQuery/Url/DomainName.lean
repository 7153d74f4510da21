import FullTextQuery.Text.Blank
import FullTextQuery.Text.Lowercase
import FullTextQuery.Url.ParseError
import FullTextQuery.Url.Percent
import FullTextQuery.Url.Punycode

namespace FullTextQuery.Url

/-!
# Domain names

A domain name is written in ASCII.  Letters become lower case, wide forms of ASCII
characters and of the full stop become the plain ones, invisible characters
disappear, and a label with anything else beyond ASCII is written in Punycode
behind `xn--`.

This is a part of the mapping of international names.  The table has the characters
named here and the lower case of letters, texts are not composed afterwards, and
neither the direction of the letters of a label nor their joining is checked.
-/

namespace DomainName

/-- Whether an ASCII character may not be in a domain name. -/
def isForbidden
    (c : Char) :
    Bool :=
  EncodeSet.control c
    || [' ', '#', '%', '/', ':', '<', '>', '?', '@', '[', '\\', ']', '^', '|'].contains c

/-- Whether a character has no place in a domain name although it is beyond ASCII. -/
def isRefused
    (c : Char) :
    Bool :=
  let n := c.toNat
  Text.isBlank c || (decide (0x80 ≤ n) && decide (n ≤ 0x9F))
    || (decide (0xE000 ≤ n) && decide (n ≤ 0xF8FF)) || (decide (0xFFF9 ≤ n) && decide (n ≤ 0xFFFF))
    || (decide (0xFDD0 ≤ n) && decide (n ≤ 0xFDEF)) || decide (0xF0000 ≤ n)
    || n % 0x10000 == 0xFFFE || n % 0x10000 == 0xFFFF

/-- Whether a character is left out of a domain name. -/
def isIgnored
    (c : Char) :
    Bool :=
  let n := c.toNat
  n == 0xAD || n == 0x200B || n == 0x2060 || n == 0xFEFF
    || (decide (0xFE00 ≤ n) && decide (n ≤ 0xFE0F))

/-- What a character becomes in a domain name. -/
def mapChar
    (c : Char) :
    List Char :=
  let n := c.toNat
  if isIgnored c then []
  else if n = 0x3002 ∨ n = 0xFF61 then ['.']
  else if n = 0x3000 ∨ n = 0xA0 then [' ']
  else if 0xFF01 ≤ n ∧ n ≤ 0xFF5E then [(Char.ofNat (n - 0xFEE0)).toLower]
  else if n = 0x1E9E then ['s', 's']
  else Text.lowerChar c

/-- The labels between full stops. -/
def labels : List Char → List (List Char)
  | [] => [[]]
  | c :: rest =>
      if c = '.' then
        [] :: labels rest
      else
        match labels rest with
        | first :: others => (c :: first) :: others
        | [] => [[c]]

/-- What marks a label in Punycode. -/
def mark : List Char :=
  ['x', 'n', '-', '-']

/-- Whether a label in Punycode stands for a text that would be written so. -/
def isWellMarked
    (label : List Char) :
    Bool :=
  match Punycode.decode? (label.drop mark.length) with
  | some text =>
      text.any (0x80 ≤ ·.toNat) && text.flatMap mapChar == text && !text.any isRefused
        && mark ++ Punycode.encode text == label
  | none => false

/-- A label in ASCII, if it is one. -/
def writeLabel?
    (label : List Char) :
    Option (List Char) :=
  if label.any fun c => decide (c.toNat < 0x80) && isForbidden c then
    none
  else if label.any (0x80 ≤ ·.toNat) then
    if label.any isRefused then none else some (mark ++ Punycode.encode label)
  else if mark.isPrefixOf label then
    if isWellMarked label then some label else none
  else
    some label

/-- A domain name in ASCII, if it is one. -/
def toAscii?
    (cs : List Char) :
    Option (List Char) :=
  ((labels (cs.flatMap mapChar)).mapM writeLabel?).map fun written =>
    ['.'].intercalate written

/-- The domain name that percent-encoded text stands for. -/
def ofEncoded
    (cs : List Char) :
    Except ParseError (List Char) :=
  let bytes := percentDecode cs
  let decoded := Text.decodeUtf8Lossy bytes
  if Text.encodeUtf8 decoded.toList ≠ bytes then
    .error .invalidInternationalDomain
  else
    match toAscii? decoded.toList with
    | some [] => .error .emptyHost
    | some name => .ok name
    | none => .error .invalidInternationalDomain

end DomainName

end FullTextQuery.Url
