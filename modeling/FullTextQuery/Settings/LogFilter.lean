import FullTextQuery.Error
import FullTextQuery.Text.Alphanumeric
import FullTextQuery.Text.Blank

namespace FullTextQuery.LogFilter

/-!
# Log filters

A log filter is a list of directives with commas between them.  A directive is a
level, a target, or a target, a span in brackets or both with `=` and a level
behind them; a span may restrict its fields in braces.  Only whether a filter can be
used is decided here.
-/

/-- Whether a text is a level: the name of one in any letter case, or its number. -/
def isLevel
    (cs : List Char) :
    Bool :=
  let name := String.ofList (cs.map Char.toLower)
  ["off", "error", "warn", "info", "debug", "trace"].contains name
    || (Decimal.below? 6 cs).isSome

/-- Whether a directive can begin with a character, unless that is a bracket. -/
def startsTarget
    (c : Char) :
    Bool :=
  Text.isAlphanumeric c || c == '-' || c == ':' || c == '_'

/-- The text of the level behind a target or a span, if there is the sign for one. -/
def levelBehind : List Char → Except LogFilterError (Option (List Char))
  | [] => .ok none
  | '=' :: level => .ok (some level)
  | _ => .error .invalidDirective

/-- The same behind a span with fields, from behind the closing brace on. -/
def levelBehindFields : List Char → Except LogFilterError (Option (List Char))
  | ']' :: rest => levelBehind rest
  | _ => .error .invalidDirective

/-- The same from behind the opening bracket of a span on. -/
def levelBehindSpan
    (cs : List Char) :
    Except LogFilterError (Option (List Char)) :=
  match cs.dropWhile fun c => c != ']' && c != '\x7b' with
  | [] => .error .invalidDirective
  | ']' :: rest => levelBehind rest
  | _ :: fields =>
      match fields.takeWhile (· != '\x7d'), fields.dropWhile (· != '\x7d') with
      | _ :: _, _ :: rest => levelBehindFields rest
      | _, _ => .error .invalidDirective

/-- The text of the level of a directive, if there is the sign for one. -/
def levelOf : List Char → Except LogFilterError (Option (List Char))
  | [] => .error .invalidDirective
  | '[' :: rest => levelBehindSpan rest
  | c :: rest =>
      if startsTarget c then
        match rest.dropWhile fun c => c != '=' && c != '[' with
        | '[' :: span => levelBehindSpan span
        | tail => levelBehind tail
      else
        .error .invalidDirective

/--
Refuse a directive that is none, or whose level is none; behind `=` a level may be
left out.  Blanks around a directive do not matter unless it has that sign: then they
make the level invalid.
-/
def checkDirective
    (directive : List Char) :
    Except LogFilterError Unit := do
  let trimmed := Text.trimBlanks directive
  match ← levelOf trimmed with
  | none => return ()
  | some level =>
      if directive ≠ trimmed ∨ !(level.isEmpty || isLevel level) then
        .error .invalidLevel

/-- Refuse a filter with a directive that cannot be used, for the first such one. -/
def check
    (filter : String) :
    Except ConfigError Unit :=
  ((Text.pieces (· == ',') filter.toList).forM checkDirective).mapError
    (.invalidLogFilter filter)

end FullTextQuery.LogFilter
