import FullTextQuery.Decimal.Integer

namespace FullTextQuery.Toml

/-!
# Dates and times of TOML

A moment is a date, a time of day, or both, and then perhaps a distance from
universal time.  It is read from digits in fixed places and written in one normal
form: a `T` between date and time, and no zeros at the end of the fraction.
-/

/-- A day of the calendar. -/
structure Date where
  year : Nat
  month : Nat
  day : Nat
  deriving Repr, DecidableEq

/-- A time of day; seconds, and behind them nanoseconds, may be left out. -/
structure TimeOfDay where
  hour : Nat
  minute : Nat
  second? : Option Nat
  nanosecond? : Option Nat
  deriving Repr, DecidableEq

/-- The distance of a local time from universal time. -/
inductive TimeOffset where
  | universal
  | minutes (negative : Bool) (count : Nat)
  deriving Repr, DecidableEq

/-- A date, a time, or both. -/
inductive Moment where
  | date (day : Date)
  | time (clock : TimeOfDay)
  | both (day : Date) (clock : TimeOfDay) (offset? : Option TimeOffset)
  deriving Repr, DecidableEq

/-- A number with leading zeros up to a width. -/
def padded
    (width n : Nat) :
    List Char :=
  let digits := Decimal.digits n
  List.replicate (width - digits.length) '0' ++ digits

/-- The number in the first `width` characters, all of them digits, and the text behind it. -/
def fixedNumber?
    (width : Nat)
    (cs : List Char) :
    Option (Nat × List Char) :=
  if cs.length < width then none
  else (Decimal.natural? (cs.take width)).map (·, cs.drop width)

/-- The text behind a character that must come next. -/
def behindChar?
    (c : Char) :
    List Char → Option (List Char)
  | [] => none
  | first :: rest => if first = c then some rest else none

namespace Date

/-- Whether a year has a day more than others. -/
def isLeapYear
    (year : Nat) :
    Bool :=
  year % 4 == 0 && (year % 100 != 0 || year % 400 == 0)

/-- The number of days of a month. -/
def daysOfMonth
    (year month : Nat) :
    Nat :=
  if month = 2 then (if isLeapYear year then 29 else 28)
  else if month = 4 ∨ month = 6 ∨ month = 9 ∨ month = 11 then 30
  else 31

/-- Whether the calendar has the day. -/
def isValid
    (date : Date) :
    Bool :=
  decide (1 ≤ date.month ∧ date.month ≤ 12 ∧ 1 ≤ date.day
    ∧ date.day ≤ daysOfMonth date.year date.month)

/-- The date at the beginning of a text, as in `1979-05-27`. -/
def read?
    (cs : List Char) :
    Option (Date × List Char) := do
  let (year, cs) ← fixedNumber? 4 cs
  let cs ← behindChar? '-' cs
  let (month, cs) ← fixedNumber? 2 cs
  let cs ← behindChar? '-' cs
  let (day, cs) ← fixedNumber? 2 cs
  let date : Date := ⟨year, month, day⟩
  if date.isValid then some (date, cs) else none

/-- The normal form of a date. -/
def text
    (date : Date) :
    List Char :=
  padded 4 date.year ++ '-' :: padded 2 date.month ++ '-' :: padded 2 date.day

end Date

namespace TimeOfDay

/-- Whether a day has the time; a minute may have a leap second. -/
def isValid
    (time : TimeOfDay) :
    Bool :=
  decide (time.hour ≤ 23 ∧ time.minute ≤ 59 ∧ time.second?.getD 0 ≤ 60)

/-- The nanoseconds that a fraction spells; digits beyond the ninth are dropped. -/
def nanoseconds
    (digits : List Char) :
    Nat :=
  Decimal.ofDigits (digits.take 9) * Nat.pow 10 (9 - digits.length)

/-- The fraction of a second, if a point follows, and the text behind it. -/
def readFraction?
    (cs : List Char) :
    Option (Option Nat × List Char) :=
  match cs with
  | '.' :: rest =>
      match rest.takeWhile Decimal.isDigit with
      | [] => none
      | digits => some (some (nanoseconds digits), rest.dropWhile Decimal.isDigit)
  | _ => some (none, cs)

/-- The time at the beginning of a text, as in `07:32:00.5`. -/
def read?
    (cs : List Char) :
    Option (TimeOfDay × List Char) := do
  let (hour, cs) ← fixedNumber? 2 cs
  let cs ← behindChar? ':' cs
  let (minute, cs) ← fixedNumber? 2 cs
  let (time, cs) ←
    match cs with
    | ':' :: rest => do
        let (second, rest) ← fixedNumber? 2 rest
        let (nanosecond?, rest) ← readFraction? rest
        some ((⟨hour, minute, some second, nanosecond?⟩ : TimeOfDay), rest)
    | _ => some (⟨hour, minute, none, none⟩, cs)
  if time.isValid then some (time, cs) else none

/-- A fraction without zeros at its end, but with at least one digit. -/
def fractionText
    (nanosecond : Nat) :
    List Char :=
  match ((padded 9 nanosecond).reverse.dropWhile (· == '0')).reverse with
  | [] => ['.', '0']
  | digits => '.' :: digits

/-- The normal form of a time. -/
def text
    (time : TimeOfDay) :
    List Char :=
  padded 2 time.hour ++ ':' :: padded 2 time.minute
    ++ (time.second?.elim [] fun second => ':' :: padded 2 second)
    ++ time.nanosecond?.elim [] fractionText

end TimeOfDay

namespace TimeOffset

/-- The offset that a whole text spells: `Z`, or a sign, hours and minutes. -/
def ofText? :
    List Char → Option TimeOffset
  | ['Z'] => some .universal
  | ['z'] => some .universal
  | sign :: cs => do
      if sign ≠ '+' ∧ sign ≠ '-' then
        none
      let (hour, cs) ← fixedNumber? 2 cs
      let cs ← behindChar? ':' cs
      let (minute, cs) ← fixedNumber? 2 cs
      if cs.isEmpty ∧ hour ≤ 23 ∧ minute ≤ 59 then
        some (.minutes (sign == '-') (hour * 60 + minute))
      else
        none
  | [] => none

/-- The normal form of an offset; the offset zero is positive. -/
def text : TimeOffset → List Char
  | .universal => ['Z']
  | .minutes negative count =>
      (if negative && count != 0 then '-' else '+')
        :: padded 2 (count / 60) ++ ':' :: padded 2 (count % 60)

end TimeOffset

namespace Moment

/-- The moment that a whole text spells. -/
def ofText?
    (cs : List Char) :
    Option Moment :=
  match Date.read? cs with
  | some (day, []) => some (.date day)
  | some (day, mark :: rest) =>
      if mark = 'T' ∨ mark = 't' ∨ mark = ' ' then
        match TimeOfDay.read? rest with
        | some (clock, []) => some (.both day clock none)
        | some (clock, offset) =>
            (TimeOffset.ofText? offset).map fun offset => .both day clock (some offset)
        | none => none
      else
        none
  | none =>
      match TimeOfDay.read? cs with
      | some (clock, []) => some (.time clock)
      | _ => none

/-- The normal form of a moment. -/
def text : Moment → String
  | .date day => String.ofList day.text
  | .time clock => String.ofList clock.text
  | .both day clock offset? =>
      String.ofList (day.text ++ 'T' :: clock.text ++ offset?.elim [] TimeOffset.text)

end Moment

end FullTextQuery.Toml
