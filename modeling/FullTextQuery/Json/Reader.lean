import FullTextQuery.Json.Basic

namespace FullTextQuery.Json

/-!
# Reading JSON

The reader takes exactly the JSON grammar: no byte-order mark, no comments, no
trailing commas, no raw control characters in texts and no lone surrogates.  A
number beyond the range of binary64 and a document nested too deeply are
refused.
-/

/-- Whether a character may stand between the parts of a document. -/
def isJsonSpace
    (c : Char) :
    Bool :=
  c == ' ' || c == '\t' || c == '\n' || c == '\r'

/-- The text behind white space. -/
def skipSpace
    (cs : List Char) :
    List Char :=
  cs.dropWhile isJsonSpace

/-- The number of four hexadecimal digits. -/
def hexQuad?
    (a b c d : Char) :
    Option Nat := do
  let a ← Text.hexValue? a
  let b ← Text.hexValue? b
  let c ← Text.hexValue? c
  let d ← Text.hexValue? d
  return ((a * 16 + b) * 16 + c) * 16 + d

/-- The character of an escape with one letter. -/
def simpleEscape?
    (c : Char) :
    Option Char :=
  match c with
  | '"' => some '"'
  | '\\' => some '\\'
  | '/' => some '/'
  | 'b' => some '\u0008'
  | 'f' => some '\u000c'
  | 'n' => some '\n'
  | 'r' => some '\r'
  | 't' => some '\t'
  | _ => none

/--
The rest of a quoted text behind its opening quote, and the text behind the
closing one.  `high` is a leading surrogate whose other half must follow.
-/
def readText
    (high : Option Nat) :
    List Char → Option (List Char × List Char)
  | [] => none
  | '"' :: rest => if high.isSome then none else some ([], rest)
  | '\\' :: 'u' :: a :: b :: c :: d :: rest =>
      match hexQuad? a b c d, high with
      | some unit, none =>
          if 0xD800 ≤ unit ∧ unit < 0xDC00 then
            readText (some unit) rest
          else if 0xDC00 ≤ unit ∧ unit < 0xE000 then
            none
          else
            (readText none rest).map fun found => (Char.ofNat unit :: found.1, found.2)
      | some unit, some lead =>
          if 0xDC00 ≤ unit ∧ unit < 0xE000 then
            let code := 0x10000 + (lead - 0xD800) * 0x400 + (unit - 0xDC00)
            (readText none rest).map fun found => (Char.ofNat code :: found.1, found.2)
          else
            none
      | none, _ => none
  | '\\' :: e :: rest =>
      if high.isSome then
        none
      else
        match simpleEscape? e with
        | some c => (readText none rest).map fun found => (c :: found.1, found.2)
        | none => none
  | c :: rest =>
      if high.isSome || c.toNat < 0x20 || c == '\\' then
        none
      else
        (readText none rest).map fun found => (c :: found.1, found.2)

/-- The fraction of a number: nothing, or a point and at least one digit. -/
def readFraction :
    List Char → Option (List Char × List Char)
  | '.' :: rest =>
      match rest.takeWhile Decimal.isDigit with
      | [] => none
      | ds => some (ds, rest.dropWhile Decimal.isDigit)
  | rest => some ([], rest)

/-- The exponent of a number: nothing, or a mark, a sign and at least one digit. -/
def readExponent :
    List Char → Option (Option Int × List Char)
  | c :: rest =>
      if c = 'e' ∨ c = 'E' then
        (Decimal.exponent? rest).map fun found => (some found.1, found.2)
      else
        some (none, c :: rest)
  | [] => some (none, [])

/-- The digits before the fraction: a lone zero, or digits that do not begin with one. -/
def readWhole
    (cs : List Char) :
    Option (List Char × List Char) :=
  match cs.takeWhile Decimal.isDigit with
  | [] => none
  | '0' :: _ :: _ => none
  | ds => some (ds, cs.dropWhile Decimal.isDigit)

/--
The document of a number, if it is in range.  One without fraction and exponent is an
integer if it fits into 64 bits, signed or unsigned; minus zero is not an integer.
Any other is the nearest double.  The reader of the service computes in doubles and
may miss the nearest one in the last place, as for `0.9385958677423489`, or overflow
just below the greatest double, as for `1.7976931348623158e308`.
-/
def numberOf?
    (negative : Bool)
    (whole fraction : List Char)
    (power? : Option Int) :
    Option Json :=
  let n := Decimal.ofDigits whole
  let fits := if negative then 0 < n ∧ n ≤ 0x8000000000000000 else n < UInt64.size
  if fraction.isEmpty ∧ power?.isNone ∧ fits then
    some (.integer (if negative then -(n : Int) else n))
  else
    let numeral : Decimal.Numeral :=
      ⟨whole ++ fraction, power?.getD 0 - (fraction.length : Int)⟩
    let x := Binary64.ofNumeral negative numeral
    if x.isInfinite then none else some (.real x)

/-- A number: an optional sign, and its parts. -/
def readNumber
    (cs : List Char) :
    Option (Json × List Char) := do
  let (negative, unsigned) :=
    match cs with
    | '-' :: rest => (true, rest)
    | _ => (false, cs)
  let (whole, rest) ← readWhole unsigned
  let (fraction, rest) ← readFraction rest
  let (power?, rest) ← readExponent rest
  let value ← numberOf? negative whole fraction power?
  return (value, rest)

/-- The text behind a word that a text begins with. -/
def behind?
    (word : List Char)
    (cs : List Char) :
    Option (List Char) :=
  if word.isPrefixOf cs then some (cs.drop word.length) else none

mutual

/-- A document behind white space, with at most `depth` arrays and objects around one another. -/
def readValue : Nat → Nat → List Char → Option (Json × List Char)
  | 0, _, _ => none
  | fuel + 1, depth, cs =>
      match skipSpace cs with
      | [] => none
      | '"' :: rest =>
          (readText none rest).map fun found => (.string (String.ofList found.1), found.2)
      | '[' :: rest =>
          match depth with
          | 0 => none
          | depth + 1 =>
              match skipSpace rest with
              | ']' :: after => some (.array [], after)
              | _ => (readItems fuel depth rest).map fun found => (.array found.1, found.2)
      | '\x7b' :: rest =>
          match depth with
          | 0 => none
          | depth + 1 =>
              match skipSpace rest with
              | '\x7d' :: after => some (.object [], after)
              | _ => (readMembers fuel depth rest).map fun found => (ofMembers found.1, found.2)
      | c :: rest =>
          if c = 't' then (behind? "rue".toList rest).map (.bool true, ·)
          else if c = 'f' then (behind? "alse".toList rest).map (.bool false, ·)
          else if c = 'n' then (behind? "ull".toList rest).map (.null, ·)
          else readNumber (c :: rest)

/-- At least one item, up to the closing bracket. -/
def readItems : Nat → Nat → List Char → Option (List Json × List Char)
  | 0, _, _ => none
  | fuel + 1, depth, cs =>
      match readValue fuel depth cs with
      | none => none
      | some (item, rest) =>
          match skipSpace rest with
          | ']' :: after => some ([item], after)
          | ',' :: more => (readItems fuel depth more).map fun found => (item :: found.1, found.2)
          | _ => none

/-- At least one member, up to the closing brace. -/
def readMembers : Nat → Nat → List Char → Option (List (String × Json) × List Char)
  | 0, _, _ => none
  | fuel + 1, depth, cs =>
      match skipSpace cs with
      | '"' :: rest =>
          match readText none rest with
          | none => none
          | some (name, afterName) =>
              match skipSpace afterName with
              | ':' :: rest =>
                  match readValue fuel depth rest with
                  | none => none
                  | some (value, rest) =>
                      match skipSpace rest with
                      | '\x7d' :: after => some ([(String.ofList name, value)], after)
                      | ',' :: more =>
                          (readMembers fuel depth more).map fun found =>
                            ((String.ofList name, value) :: found.1, found.2)
                      | _ => none
              | _ => none
      | _ => none

end

/-- The deepest nesting that a document from outside may have. -/
def depthLimit : Nat :=
  127

/-- The document that a whole text spells, with at most `depth` levels of nesting. -/
def readWithin?
    (depth : Nat)
    (text : String) :
    Option Json :=
  let cs := text.toList
  match readValue (cs.length + 1) depth cs with
  | some (value, rest) => if (skipSpace rest).isEmpty then some value else none
  | none => none

/-- The document that a whole text spells. -/
def read?
    (text : String) :
    Option Json :=
  readWithin? depthLimit text

end FullTextQuery.Json
