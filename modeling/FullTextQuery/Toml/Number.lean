import FullTextQuery.Binary64.Text
import FullTextQuery.Text.Hexadecimal

namespace FullTextQuery.Toml

/-!
# Numbers of TOML

Integers are decimal, hexadecimal, octal or binary and fit into 64 bits; reals
have a fraction, an exponent or both, or are infinite or not a number.  A single
underscore may stand between two digits, and a decimal number of several digits
does not begin with zero.
-/

/-- Digits without the underscores between them. -/
def ungroup?
    (isDigit : Char → Bool) :
    List Char → Option (List Char)
  | [] => none
  | [c] => if isDigit c then some [c] else none
  | c :: '_' :: rest => if isDigit c then (ungroup? isDigit rest).map (c :: ·) else none
  | c :: rest => if isDigit c then (ungroup? isDigit rest).map (c :: ·) else none

/-- The digits of a number without a sign: one digit, or several that do not begin with zero. -/
def wholeDigits?
    (cs : List Char) :
    Option (List Char) := do
  match ← ungroup? Decimal.isDigit cs with
  | '0' :: _ :: _ => none
  | digits => some digits

/-- A number without its sign, which tells whether it is negative. -/
def splitSign :
    List Char → Bool × List Char
  | '+' :: rest => (false, rest)
  | '-' :: rest => (true, rest)
  | cs => (false, cs)

/-- The number that digits of a base from 2 to 16 spell. -/
def inBase?
    (base : Nat)
    (cs : List Char) :
    Option Nat := do
  let isDigit := fun c => (Text.hexValue? c).any fun value => decide (value < base)
  let digits ← ungroup? isDigit cs
  return digits.foldl (fun value c => value * base + (Text.hexValue? c).getD 0) 0

/-- The integer that a whole text spells, of any size. -/
def unboundedInteger?
    (cs : List Char) :
    Option Int :=
  match cs with
  | '0' :: 'x' :: digits => (inBase? 16 digits).map Int.ofNat
  | '0' :: 'o' :: digits => (inBase? 8 digits).map Int.ofNat
  | '0' :: 'b' :: digits => (inBase? 2 digits).map Int.ofNat
  | _ =>
      let (negative, digits) := splitSign cs
      (wholeDigits? digits).map fun digits =>
        if negative then -(Decimal.ofDigits digits : Int) else Decimal.ofDigits digits

/-- The integer that a whole text spells, if it fits into 64 bits. -/
def integer?
    (cs : List Char) :
    Option Int :=
  (unboundedInteger? cs).filter fun n =>
    decide (-0x8000000000000000 ≤ n ∧ n < 0x8000000000000000)

/-- The power of ten of an exponent behind its mark. -/
def power?
    (cs : List Char) :
    Option Int :=
  let (negative, digits) := splitSign cs
  (ungroup? Decimal.isDigit digits).map fun digits =>
    if negative then -(Decimal.ofDigits digits : Int) else Decimal.ofDigits digits

/-- The numeral of a real without its sign: it has a fraction or an exponent. -/
def realNumeral?
    (cs : List Char) :
    Option Decimal.Numeral := do
  let isMark := fun c => c == 'e' || c == 'E'
  let outside := fun c => !isMark c
  let power? ←
    match cs.dropWhile outside with
    | [] => some none
    | _ :: exponent => (power? exponent).map some
  let mantissa := cs.takeWhile outside
  let whole ← wholeDigits? (mantissa.takeWhile (· != '.'))
  match mantissa.dropWhile (· != '.'), power? with
  | [], none => none
  | [], some power => return ⟨whole, power⟩
  | _ :: fraction, power? => do
      let fraction ← ungroup? Decimal.isDigit fraction
      return ⟨whole ++ fraction, power?.getD 0 - (fraction.length : Int)⟩

/-- The real that a whole text spells; numerals beyond the range of binary64 are refused. -/
def real?
    (cs : List Char) :
    Option Binary64 :=
  let (negative, magnitude) := splitSign cs
  match magnitude with
  | ['i', 'n', 'f'] => some (.infinity negative)
  | ['n', 'a', 'n'] => some .nan
  | _ =>
      ((realNumeral? magnitude).map (Binary64.ofNumeral negative)).filter fun x => !x.isInfinite

end FullTextQuery.Toml
