namespace FullTextQuery.Text

/-!
# Hexadecimal digits
-/

/-- The value of a hexadecimal digit. -/
def hexValue?
    (c : Char) :
    Option Nat :=
  if '0' ≤ c ∧ c ≤ '9' then some (c.toNat - '0'.toNat)
  else if 'a' ≤ c ∧ c ≤ 'f' then some (c.toNat - 'a'.toNat + 10)
  else if 'A' ≤ c ∧ c ≤ 'F' then some (c.toNat - 'A'.toNat + 10)
  else none

/-- A lower-case hexadecimal digit. -/
def lowerHexDigit
    (n : Nat) :
    Char :=
  Nat.digitChar n

/-- An upper-case hexadecimal digit. -/
def upperHexDigit
    (n : Nat) :
    Char :=
  (Nat.digitChar n).toUpper

end FullTextQuery.Text
