import FullTextQuery.Json.Reader
import FullTextQuery.Proofs.Query.Scanners

namespace FullTextQuery.Json

open Query (IsDigits minus)

/-!
# The grammar of JSON

Which texts spell a document.  Every rule relates a text to what its beginning spells and to
the text behind it.  The rules are those of the standard; besides, a number has to be in the
range of binary64, a surrogate needs its other half, and documents are nested within a bound.
-/

/-- White space in front of the rest of a text. -/
def Blank
    (cs rest : List Char) :
    Prop :=
  ∃ blanks, cs = blanks ++ rest ∧ ∀ c ∈ blanks, isJsonSpace c = true

/-- Whether a unit of UTF-16 is the first half of a pair. -/
abbrev IsHigh
    (unit : Nat) :
    Prop :=
  0xD800 ≤ unit ∧ unit < 0xDC00

/-- Whether a unit of UTF-16 is the second half of a pair. -/
abbrev IsLow
    (unit : Nat) :
    Prop :=
  0xDC00 ≤ unit ∧ unit < 0xE000

/-- The characters of a text up to its closing quote. -/
inductive Quoted : List Char → List Char → List Char → Prop
  | close {rest : List Char} : Quoted ('"' :: rest) [] rest
  | plain {c : Char} {cs found rest : List Char} :
      0x20 ≤ c.toNat → c ≠ '"' → c ≠ '\\' → Quoted cs found rest →
        Quoted (c :: cs) (c :: found) rest
  | escape {letter c : Char} {cs found rest : List Char} :
      simpleEscape? letter = some c → Quoted cs found rest →
        Quoted ('\\' :: letter :: cs) (c :: found) rest
  | unit {a b c d : Char} {unit : Nat} {cs found rest : List Char} :
      hexQuad? a b c d = some unit → ¬ IsHigh unit → ¬ IsLow unit → Quoted cs found rest →
        Quoted ('\\' :: 'u' :: a :: b :: c :: d :: cs) (Char.ofNat unit :: found) rest
  | pair {a b c d e f g h : Char} {high low : Nat} {cs found rest : List Char} :
      hexQuad? a b c d = some high → IsHigh high → hexQuad? e f g h = some low → IsLow low →
        Quoted cs found rest →
          Quoted ('\\' :: 'u' :: a :: b :: c :: d :: '\\' :: 'u' :: e :: f :: g :: h :: cs)
            (Char.ofNat (0x10000 + (high - 0xD800) * 0x400 + (low - 0xDC00)) :: found) rest

/-- The digits before the fraction: a lone zero, or digits that do not begin with one. -/
structure IsWhole (digits : List Char) : Prop where
  proper : IsDigits digits
  noZero : digits = ['0'] ∨ digits.head? ≠ some '0'

/-- A fraction: nothing, or a point and digits. -/
inductive Fraction : List Char → List Char → List Char → Prop
  | absent {rest : List Char} : Fraction rest [] rest
  | present {digits rest : List Char} :
      IsDigits digits → Fraction ('.' :: (digits ++ rest)) digits rest

/-- The sign of an exponent, or none, and whether the exponent is negative. -/
inductive ExponentSign : List Char → Bool → Prop
  | absent : ExponentSign [] false
  | plus : ExponentSign ['+'] false
  | minus : ExponentSign ['-'] true

/-- The number that some digits spell behind a sign. -/
def signedBy
    (negative : Bool)
    (digits : List Char) :
    Int :=
  if negative then -(Decimal.ofDigits digits : Int) else Decimal.ofDigits digits

/-- An exponent: nothing, or a mark, a sign or none, and digits. -/
inductive Exponent : List Char → Option Int → List Char → Prop
  | absent {rest : List Char} : Exponent rest none rest
  | present {mark : Char} {sign digits rest : List Char} {negative : Bool} :
      mark = 'e' ∨ mark = 'E' → ExponentSign sign negative → IsDigits digits →
        Exponent (mark :: (sign ++ (digits ++ rest))) (some (signedBy negative digits)) rest

/-- A number in range. -/
inductive Number : List Char → Json → List Char → Prop
  | mk {negative : Bool} {whole fraction afterWhole afterFraction rest : List Char}
      {power? : Option Int} {value : Json} :
      IsWhole whole → Fraction afterWhole fraction afterFraction →
        Exponent afterFraction power? rest → numberOf? negative whole fraction power? = some value →
          Number (minus negative ++ whole ++ afterWhole) value rest

/-- The words and the documents that they stand for. -/
def words : List (List Char × Json) :=
  [("null".toList, .null), ("true".toList, .bool true), ("false".toList, .bool false)]

mutual

/-- A document behind white space, with at most so many arrays and objects around one another. -/
inductive Spells : Nat → List Char → Json → List Char → Prop
  | word {depth : Nat} {cs word rest : List Char} {value : Json} :
      (word, value) ∈ words → Blank cs (word ++ rest) → Spells depth cs value rest
  | number {depth : Nat} {cs digits rest : List Char} {value : Json} :
      Blank cs digits → Number digits value rest → Spells depth cs value rest
  | text {depth : Nat} {cs quoted found rest : List Char} :
      Blank cs ('"' :: quoted) → Quoted quoted found rest →
        Spells depth cs (.string (String.ofList found)) rest
  | noItems {depth : Nat} {cs more rest : List Char} :
      Blank cs ('[' :: more) → Blank more (']' :: rest) → Spells (depth + 1) cs (.array []) rest
  | array {depth : Nat} {cs more rest : List Char} {items : List Json} :
      Blank cs ('[' :: more) → SpellsItems depth more items rest →
        Spells (depth + 1) cs (.array items) rest
  | noMembers {depth : Nat} {cs more rest : List Char} :
      Blank cs ('\x7b' :: more) → Blank more ('\x7d' :: rest) →
        Spells (depth + 1) cs (.object []) rest
  | object {depth : Nat} {cs more rest : List Char} {members : List (String × Json)} :
      Blank cs ('\x7b' :: more) → SpellsMembers depth more members rest →
        Spells (depth + 1) cs (ofMembers members) rest

/-- At least one item, up to the closing bracket. -/
inductive SpellsItems : Nat → List Char → List Json → List Char → Prop
  | last {depth : Nat} {cs more rest : List Char} {item : Json} :
      Spells depth cs item more → Blank more (']' :: rest) → SpellsItems depth cs [item] rest
  | more {depth : Nat} {cs more others rest : List Char} {item : Json} {items : List Json} :
      Spells depth cs item more → Blank more (',' :: others) → SpellsItems depth others items rest →
        SpellsItems depth cs (item :: items) rest

/-- At least one member, up to the closing brace. -/
inductive SpellsMembers : Nat → List Char → List (String × Json) → List Char → Prop
  | last {depth : Nat} {cs quoted name behind spelled more rest : List Char} {value : Json} :
      Blank cs ('"' :: quoted) → Quoted quoted name behind → Blank behind (':' :: spelled) →
        Spells depth spelled value more → Blank more ('\x7d' :: rest) →
          SpellsMembers depth cs [(String.ofList name, value)] rest
  | more {depth : Nat} {cs quoted name behind spelled more others rest : List Char} {value : Json}
      {members : List (String × Json)} :
      Blank cs ('"' :: quoted) → Quoted quoted name behind → Blank behind (':' :: spelled) →
        Spells depth spelled value more → Blank more (',' :: others) →
          SpellsMembers depth others members rest →
            SpellsMembers depth cs ((String.ofList name, value) :: members) rest

end

/-- Whether a whole text spells a document. -/
def IsTextOf
    (text : String)
    (document : Json) :
    Prop :=
  ∃ rest, Spells depthLimit text.toList document rest ∧ Blank rest []

end FullTextQuery.Json
