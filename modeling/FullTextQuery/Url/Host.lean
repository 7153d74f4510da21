import FullTextQuery.Decimal.Integer
import FullTextQuery.Url.DomainName

namespace FullTextQuery.Url

/-!
# Hosts

A host is a name or a number.  Under a special scheme a name is a domain name,
and a name whose last label is a number is an address; under another scheme a
name is only encoded.
-/

/-- A host. -/
inductive Host where
  | name (text : List Char)
  | ipv4 (address : Nat)
  | ipv6 (pieces : List Nat)
  deriving Repr, DecidableEq

namespace Host

/-- The number of some digits, if all of them are below the base. -/
def numberInBase?
    (base : Nat)
    (cs : List Char) :
    Option Nat :=
  cs.foldlM (fun n c => do
    let value ← Text.hexValue? c
    if value < base then some (n * base + value) else none) 0

/--
A part of an address: hexadecimal behind `0x`, octal behind `0`, otherwise
decimal.  Behind `0x` there may be nothing, which is zero.
-/
def addressPart? : List Char → Option Nat
  | [] => none
  | '0' :: 'x' :: rest => numberInBase? 16 rest
  | '0' :: 'X' :: rest => numberInBase? 16 rest
  | '0' :: c :: rest => numberInBase? 8 (c :: rest)
  | cs => numberInBase? 10 cs

/-- The labels of a name, without a last empty one. -/
def addressLabels
    (name : List Char) :
    List (List Char) :=
  let labels := DomainName.labels name
  if 1 < labels.length ∧ labels.getLast? = some [] then labels.dropLast else labels

/-- Whether the last label of a name is a number, so that the name must be an address. -/
def endsInNumber
    (name : List Char) :
    Bool :=
  match (addressLabels name).getLast? with
  | some last =>
      (!last.isEmpty && last.all Decimal.isDigit) || (addressPart? last).isSome
  | none => false

/-- The address that a name of up to four numbers stands for; the last one fills what is left. -/
def ipv4?
    (name : List Char) :
    Option Nat :=
  match (addressLabels name).mapM addressPart? with
  | none => none
  | some parts =>
      match parts.getLast? with
      | none => none
      | some last =>
          let leading := parts.dropLast
          if 4 < parts.length ∨ leading.any (255 < ·) ∨ Nat.pow 256 (4 - leading.length) ≤ last then
            none
          else
            let high := leading.foldl (fun n part => n * 256 + part) 0
            some (high * Nat.pow 256 (4 - leading.length) + last)

/-- A group of up to four hexadecimal digits, and the rest. -/
def hexGroup?
    (cs : List Char) :
    Option (Nat × List Char) :=
  let digits := (cs.take 4).takeWhile fun c => (Text.hexValue? c).isSome
  match digits with
  | [] => none
  | _ => (numberInBase? 16 digits).map fun n => (n, cs.drop digits.length)

/-- A decimal number below 256 without a leading zero. -/
def byte?
    (cs : List Char) :
    Option Nat :=
  match cs with
  | '0' :: _ :: _ => none
  | _ => (Decimal.natural? cs).filter (· < 256)

/-- The two pieces that an address of four numbers at the end stands for. -/
def embedded?
    (cs : List Char) :
    Option (List Nat) :=
  match (DomainName.labels cs).mapM byte? with
  | some [a, b, c, d] => some [a * 256 + b, c * 256 + d]
  | _ => none

/-- The pieces between colons, of which the last may be an address of four numbers. -/
def groups? : (fuel : Nat) → List Char → Option (List Nat × Option (List Char))
  | 0, _ => none
  | fuel + 1, cs =>
      match embedded? cs with
      | some pieces => some (pieces, none)
      | none =>
          match hexGroup? cs with
          | none => none
          | some (n, []) => some ([n], none)
          | some (n, ':' :: ':' :: rest) => some ([n], some rest)
          | some (n, ':' :: rest) =>
              (groups? fuel rest).map fun found => (n :: found.1, found.2)
          | some _ => none

/-- The pieces behind a gap, possibly none. -/
def groupsBehind?
    (cs : List Char) :
    Option (List Nat) :=
  match cs with
  | [] => some []
  | _ =>
      match groups? 8 cs with
      | some (pieces, none) => some pieces
      | _ => none

/-- The eight pieces on both sides of a gap of at least one piece. -/
def fillGap?
    (before after : List Nat) :
    Option (List Nat) :=
  let count := before.length + after.length
  if count < 8 then some (before ++ List.replicate (8 - count) 0 ++ after) else none

/-- The address of eight pieces that stands in brackets. -/
def ipv6?
    (cs : List Char) :
    Option (List Nat) :=
  match cs with
  | ':' :: ':' :: rest => (groupsBehind? rest).bind (fillGap? [])
  | _ =>
      match groups? 8 cs with
      | some (pieces, none) => if pieces.length = 8 then some pieces else none
      | some (before, some rest) => (groupsBehind? rest).bind (fillGap? before)
      | none => none

/-- The host that stands in brackets, if the text begins with one. -/
def bracketed?
    (cs : List Char) :
    Option (Except ParseError Host) :=
  match cs with
  | '[' :: rest =>
      some (match rest.getLast?, ipv6? rest.dropLast with
        | some ']', some pieces => .ok (.ipv6 pieces)
        | _, _ => .error .invalidIpv6Address)
  | _ => none

/-- The host of a special scheme. -/
def ofDomain
    (cs : List Char) :
    Except ParseError Host := do
  match bracketed? cs with
  | some host => host
  | none =>
      let name ← DomainName.ofEncoded cs
      if endsInNumber name then
        match ipv4? name with
        | some address => return .ipv4 address
        | none => .error .invalidIpv4Address
      else
        return .name name

/-- Whether a character may not be in the host of a scheme that is not special. -/
def isForbiddenOpaque
    (c : Char) :
    Bool :=
  let forbidden :=
    ['\x00', '\t', '\n', '\r', ' ', '#', '/', ':', '<', '>', '?', '@', '[', '\\', ']', '^', '|']
  forbidden.contains c

/-- The host of a scheme that is not special. -/
def ofOpaque
    (cs : List Char) :
    Except ParseError Host :=
  match bracketed? cs with
  | some host => host
  | none =>
      if cs.any isForbiddenOpaque then .error .invalidDomainCharacter
      else .ok (.name (percentEncode EncodeSet.control cs))

/-- The number of zeros at the front. -/
def leadingZeros
    (pieces : List Nat) :
    Nat :=
  (pieces.takeWhile (· == 0)).length

/--
The place and the length of the first longest run of zeros; `place` is that of the first
piece.
-/
def longestZeros
    (place : Nat) :
    List Nat → Nat × Nat
  | [] => (place, 0)
  | piece :: rest =>
      let here := leadingZeros (piece :: rest)
      let later := longestZeros (place + 1) rest
      if later.2 ≤ here then (place, here) else later

/-- A piece without leading zeros. -/
def writePiece
    (n : Nat) :
    List Char :=
  Nat.toDigits 16 n

/-- Pieces with colons between them. -/
def writePieces
    (pieces : List Nat) :
    List Char :=
  [':'].intercalate (pieces.map writePiece)

/-- The text of a host. -/
def text : Host → List Char
  | .name text => text
  | .ipv4 n =>
      ['.'].intercalate
        ([n / 0x1000000, n / 0x10000 % 256, n / 256 % 256, n % 256].map Decimal.digits)
  | .ipv6 pieces =>
      let (place, count) := longestZeros 0 pieces
      let inside :=
        if count < 2 then
          writePieces pieces
        else
          writePieces (pieces.take place) ++ [':', ':']
            ++ writePieces (pieces.drop (place + count))
      '[' :: inside ++ [']']

end Host

end FullTextQuery.Url
