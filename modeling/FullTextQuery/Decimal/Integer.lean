namespace FullTextQuery.Decimal

/-!
# Decimal integers

Reading ASCII digits as numbers, and the decimal text of a number.  A signed
reading accepts at most one sign and at least one digit, and refuses what does
not fit into 64 bits.
-/

/-- Whether a character is an ASCII digit. -/
def isDigit
    (c : Char) :
    Bool :=
  decide ('0'.toNat ≤ c.toNat) && decide (c.toNat ≤ '9'.toNat)

/-- The value of an ASCII digit. -/
def digitValue
    (c : Char) :
    Nat :=
  c.toNat - '0'.toNat

/-- The number written by digits, the most significant first. -/
def ofDigits
    (digits : List Char) :
    Nat :=
  digits.foldl (fun value c => value * 10 + digitValue c) 0

/-- The number of a non-empty text of digits. -/
def natural?
    (cs : List Char) :
    Option Nat :=
  if cs.isEmpty || !cs.all isDigit then none else some (ofDigits cs)

/-- The number after an optional sign. -/
def integer? :
    List Char → Option Int
  | '+' :: digits => (natural? digits).map Int.ofNat
  | '-' :: digits => (natural? digits).map fun n => -(n : Int)
  | digits => (natural? digits).map Int.ofNat

/-- The 64-bit number equal to an integer, if there is one. -/
def int64OfInt?
    (n : Int) :
    Option Int64 :=
  if -0x8000000000000000 ≤ n ∧ n < 0x8000000000000000 then some (Int64.ofInt n) else none

/-- The 64-bit number after an optional sign. -/
def int64?
    (cs : List Char) :
    Option Int64 :=
  (integer? cs).bind int64OfInt?

/-- The unsigned number after an optional plus sign, if it is below `bound`. -/
def below?
    (bound : Nat) :
    List Char → Option Nat
  | '+' :: digits => (natural? digits).filter (· < bound)
  | digits => (natural? digits).filter (· < bound)

/-- The decimal digits of a number. -/
def digits
    (n : Nat) :
    List Char :=
  Nat.toDigits 10 n

/-- The decimal text of a signed number. -/
def ofInt
    (n : Int) :
    String :=
  String.ofList (if n < 0 then '-' :: digits n.natAbs else digits n.natAbs)

end FullTextQuery.Decimal
