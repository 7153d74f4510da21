namespace FullTextQuery.Url.Punycode

/-!
# Punycode

Text beyond ASCII in the letters, digits and hyphens of a host name.  The
ASCII characters come first; the others follow in the order of their code
points, each as a number that tells how many steps of code point and place lie
between it and the one before.  Numbers are written with digits of a base that adapts.
-/

/-- The number of digits. -/
def base : Nat := 36

/-- The digit of a value: letters first. -/
def digit
    (n : Nat) :
    Char :=
  if n < 26 then Char.ofNat ('a'.toNat + n) else Char.ofNat ('0'.toNat + (n - 26))

/-- The value of a digit in lower case. -/
def digitValue?
    (c : Char) :
    Option Nat :=
  if 'a' ≤ c ∧ c ≤ 'z' then some (c.toNat - 'a'.toNat)
  else if c.isDigit then some (c.toNat - '0'.toNat + 26)
  else none

/-- The least value of a digit after which another one follows. -/
def threshold
    (bias place : Nat) :
    Nat :=
  min 26 (max 1 (place - bias))

/-- Divide a number until it is small; `fuel` bounds the divisions. -/
def shrink : (fuel : Nat) → (delta places : Nat) → Nat × Nat
  | 0, delta, places => (delta, places)
  | fuel + 1, delta, places =>
      if 455 < delta then shrink fuel (delta / 35) (places + base) else (delta, places)

/-- The bias behind a number, the number of characters placed then, and whether it was the first. -/
def adapt
    (delta count : Nat)
    (isFirst : Bool) :
    Nat :=
  let halved := if isFirst then delta / 700 else delta / 2
  let (rest, places) := shrink (halved + 1) (halved + halved / count) 0
  places + base * rest / (rest + 38)

/-- The digits of a number; `fuel` bounds their number. -/
def writeNumber
    (bias : Nat) :
    (fuel place n : Nat) → List Char
  | 0, _, _ => []
  | fuel + 1, place, n =>
      let t := threshold bias place
      if n < t then
        [digit n]
      else
        digit (t + (n - t) % (base - t))
          :: writeNumber bias fuel (place + base) ((n - t) / (base - t))

/-- How far an encoding has come. -/
structure Encoder where
  output : List Char
  delta : Nat
  bias : Nat
  placed : Nat
  deriving Repr

/-- Look at one character while those of a code point are placed. -/
def Encoder.step
    (basics code : Nat)
    (e : Encoder)
    (c : Char) :
    Encoder :=
  if c.toNat < code then
    { e with delta := e.delta + 1 }
  else if c.toNat = code then
    { output := e.output ++ writeNumber e.bias (e.delta + 1) base e.delta
      delta := 0
      bias := adapt e.delta (e.placed + 1) (e.placed == basics)
      placed := e.placed + 1 }
  else
    e

/-- Place the characters of some code points, given in ascending order after `next`. -/
def Encoder.run
    (cs : List Char)
    (basics : Nat) :
    (codes : List Nat) → (next : Nat) → Encoder → Encoder
  | [], _, e => e
  | code :: codes, next, e =>
      let moved := { e with delta := e.delta + (code - next) * (e.placed + 1) }
      let placed := cs.foldl (Encoder.step basics code) moved
      Encoder.run cs basics codes (code + 1) { placed with delta := placed.delta + 1 }

/-- Put a number into an ascending list, once. -/
def insertSorted
    (n : Nat) :
    List Nat → List Nat
  | [] => [n]
  | m :: rest =>
      if n < m then n :: m :: rest
      else if n = m then m :: rest
      else m :: insertSorted n rest

/-- The encoding of a text. -/
def encode
    (cs : List Char) :
    List Char :=
  let basic := cs.filter (·.toNat < 0x80)
  let codes := (cs.filter (0x80 ≤ ·.toNat)).foldl (fun codes c => insertSorted c.toNat codes) []
  let separated := if basic.isEmpty then [] else basic ++ ['-']
  separated ++ (Encoder.run cs basic.length codes 0x80 ⟨[], 0, 72, basic.length⟩).output

/-- The number that some digits begin with, its weight growing, and the rest. -/
def readNumber?
    (bias : Nat) :
    (place weight sum : Nat) → List Char → Option (Nat × List Char)
  | _, _, _, [] => none
  | place, weight, sum, c :: rest =>
      match digitValue? c with
      | none => none
      | some value =>
          let sum := sum + value * weight
          let t := threshold bias place
          if value < t then some (sum, rest)
          else readNumber? bias (place + base) (weight * (base - t)) sum rest

/-- Put the characters that digits tell into their places; `fuel` bounds their number. -/
def readCharacters?
    (basics : Nat) :
    (fuel position code bias : Nat) → (placed : List Char) → List Char → Option (List Char)
  | _, _, _, _, placed, [] => some placed
  | 0, _, _, _, _, _ => none
  | fuel + 1, position, code, bias, placed, digits =>
      match readNumber? bias base 1 0 digits with
      | none => none
      | some (delta, rest) =>
          let count := placed.length + 1
          let reached := position + delta
          let code := code + reached / count
          let place := reached % count
          if h : code.isValidChar then
            let c := Char.ofNatAux code h
            readCharacters? basics fuel (place + 1) code
              (adapt delta count (placed.length == basics))
              (placed.take place ++ c :: placed.drop place) rest
          else
            none

/-- The text of an encoding in lower case. -/
def decode?
    (cs : List Char) :
    Option (List Char) :=
  let reversed := cs.reverse
  let digits := (reversed.takeWhile (· != '-')).reverse
  let basic := ((reversed.dropWhile (· != '-')).drop 1).reverse
  readCharacters? basic.length cs.length 0 0x80 72 basic digits

end FullTextQuery.Url.Punycode
