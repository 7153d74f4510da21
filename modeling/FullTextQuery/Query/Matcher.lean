namespace FullTextQuery.Query

/-!
# Matchers

A matcher takes what it recognises off the front of a text, or fails.  Choice is
ordered and repetition is greedy, so a matcher has one answer for a text.  Beside
the answer it reports how far it got: the named rule that failed nearest to the
end of the text, given by the number of characters left where the rule began.
Failures on abandoned branches count.
-/

/-- The nearer to the end of two failures, each given by the characters left. -/
def nearer : Option Nat → Option Nat → Option Nat
  | none, other => other
  | one, none => one
  | some a, some b => some (min a b)

/-- What a matcher answers: the value and the rest of the text, and the nearest failure. -/
structure Outcome (α : Type) where
  matched? : Option (α × List Char)
  failure? : Option Nat
  deriving Repr, DecidableEq

/-- Something that recognises the beginning of a text. -/
def Matcher (α : Type) : Type :=
  List Char → Outcome α

namespace Matcher

/-- Match nothing and answer a value. -/
def succeed
    (value : α) :
    Matcher α :=
  fun cs => ⟨some (value, cs), none⟩

/-- Fail without a trace. -/
def fail : Matcher α :=
  fun _ => ⟨none, none⟩

/-- Match in sequence. -/
def andThen
    (first : Matcher α)
    (second : α → Matcher β) :
    Matcher β :=
  fun cs =>
    let one := first cs
    match one.matched? with
    | none => ⟨none, one.failure?⟩
    | some (value, rest) =>
        let two := second value rest
        ⟨two.matched?, nearer one.failure? two.failure?⟩

instance : Monad Matcher where
  pure := succeed
  bind := andThen

/-- The first matcher, or the second one where the first fails. -/
def orElse
    (first second : Matcher α) :
    Matcher α :=
  fun cs =>
    let one := first cs
    match one.matched? with
    | some _ => one
    | none =>
        let two := second cs
        ⟨two.matched?, nearer one.failure? two.failure?⟩

/-- The first of several matchers that matches. -/
def firstOf : List (Matcher α) → Matcher α
  | [] => fail
  | m :: ms => orElse m (firstOf ms)

/-- What a matcher recognises, or nothing. -/
def optional
    (m : Matcher α) :
    Matcher (Option α) :=
  orElse (m.andThen fun value => succeed (some value)) (succeed none)

/-- At most `count` matches in a row. -/
def upTo
    (m : Matcher α) :
    Nat → Matcher (List α)
  | 0 => succeed []
  | count + 1 =>
      orElse
        (m.andThen fun value =>
          (upTo m count).andThen fun values => succeed (value :: values))
        (succeed [])

/--
As many matches in a row as there are.  A matcher that takes at least one
character at a time cannot match more often than there are characters.
-/
def many
    (m : Matcher α) :
    Matcher (List α) :=
  fun cs => m.upTo (cs.length + 1) cs

/-- A named rule: where it fails, the failure is reported at its beginning. -/
def rule
    (m : Matcher α) :
    Matcher α :=
  fun cs =>
    let answer := m cs
    match answer.matched? with
    | some _ => answer
    | none => ⟨none, nearer answer.failure? (some cs.length)⟩

/-- A named rule that looks at characters only. -/
def token
    (scan : List Char → Option (α × List Char)) :
    Matcher α :=
  fun cs =>
    match scan cs with
    | some found => ⟨some found, none⟩
    | none => ⟨none, some cs.length⟩

/-- One given character, which is not a rule. -/
def sign
    (expected : Char) :
    Matcher Unit :=
  fun cs =>
    match cs with
    | c :: rest => if c = expected then ⟨some ((), rest), none⟩ else ⟨none, none⟩
    | [] => ⟨none, none⟩

/-- The number of characters left. -/
def left : Matcher Nat :=
  fun cs => ⟨some (cs.length, cs), none⟩

end Matcher

end FullTextQuery.Query
