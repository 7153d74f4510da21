import Mathlib.Data.List.Basic

namespace FullTextQuery

/-!
# Parsing expression grammars

A grammar gives each of its rules a parsing expression.  Choice is ordered and
repetition is greedy, and neither is taken back.  In an ordinary rule layout may
stand between the parts of a sequence and between repetitions; the other kinds
of rules have none inside.  What a text is read as is a relation between an
expression, a text and an answer: the trees of the rules that were matched and
the rest of the text, or nothing where the expression fails.
-/

/-- What is taken off a text without asking a rule. -/
inductive Terminal where
  | text (expected : List Char)
  | word (lowered : List Char)
  | one (kind : Char → Bool)
  | finish

namespace Terminal

/-- The text behind a terminal; a word may be written in any case. -/
def after? : Terminal → List Char → Option (List Char)
  | .text expected, cs =>
      if cs.take expected.length = expected then some (cs.drop expected.length) else none
  | .word lowered, cs =>
      if (cs.take lowered.length).map Char.toLower = lowered then
        some (cs.drop lowered.length)
      else
        none
  | .one _, [] => none
  | .one kind, c :: rest => if kind c then some rest else none
  | .finish, [] => some []
  | .finish, _ :: _ => none

end Terminal

/-- A parsing expression over the names of rules. -/
inductive Peg (ρ : Type) where
  | empty
  | terminal (t : Terminal)
  | rule (r : ρ)
  | seq (first second : Peg ρ)
  | choice (first second : Peg ρ)
  | many (part : Peg ρ)
  | absent (part : Peg ρ)

namespace Peg

variable {ρ : Type}

/-- Parts one behind the other. -/
def sequence : List (Peg ρ) → Peg ρ
  | [] => empty
  | [part] => part
  | part :: next :: others => seq part (sequence (next :: others))

/-- The first of several alternatives that matches. -/
def firstOf : List (Peg ρ) → Peg ρ
  | [] => absent empty
  | [alternative] => alternative
  | alternative :: next :: others => choice alternative (firstOf (next :: others))

/-- A part or nothing. -/
def optional
    (part : Peg ρ) :
    Peg ρ :=
  choice part empty

/-- A part at least once. -/
def atLeastOnce
    (part : Peg ρ) :
    Peg ρ :=
  seq part (many part)

/-- An expression with layout between the parts of sequences and between repetitions. -/
def spaced
    (layout : Peg ρ) :
    Peg ρ → Peg ρ
  | .seq first second => seq (spaced layout first) (seq layout (spaced layout second))
  | .choice first second => choice (spaced layout first) (spaced layout second)
  | .many part =>
      optional (seq (spaced layout part) (many (seq layout (spaced layout part))))
  | .absent part => .absent (spaced layout part)
  | .empty => empty
  | .terminal t => terminal t
  | .rule r => rule r

end Peg

/-- How a rule treats layout and the trees inside it. -/
inductive RuleKind where
  /-- Layout between the parts; a tree with trees inside. -/
  | ordinary
  /-- No layout; a tree with trees inside. -/
  | compound
  /-- No layout; a tree with nothing inside. -/
  | atomic
  /-- No layout; no tree of its own. -/
  | silent
  deriving DecidableEq

/-- A matched rule with the text it covers and the rules matched inside. -/
inductive Tree (ρ : Type) where
  | node (rule : ρ) (text : List Char) (parts : List (Tree ρ))

/-- The rules of a language and the layout between their parts. -/
structure PegGrammar (ρ : Type) where
  layout : Peg ρ
  kind : ρ → RuleKind
  body : ρ → Peg ρ

namespace PegGrammar

variable {ρ : Type}

/-- What a rule matches, with layout where the rule has it. -/
def inside
    (g : PegGrammar ρ)
    (r : ρ) :
    Peg ρ :=
  match g.kind r with
  | .ordinary => .spaced g.layout (g.body r)
  | .compound | .atomic | .silent => g.body r

/-- What a matched rule contributes to the tree around it. -/
def trees
    (g : PegGrammar ρ)
    (r : ρ)
    (text : List Char)
    (parts : List (Tree ρ)) :
    List (Tree ρ) :=
  match g.kind r with
  | .ordinary | .compound => [.node r text parts]
  | .atomic => [.node r text []]
  | .silent => parts

/-- What an expression makes of a text: trees and the rest of the text, or a failure. -/
inductive Parses (g : PegGrammar ρ) :
    Peg ρ → List Char → Option (List (Tree ρ) × List Char) → Prop
  | empty {cs : List Char} : Parses g .empty cs (some ([], cs))
  | terminal {t : Terminal} {cs : List Char} :
      Parses g (.terminal t) cs ((t.after? cs).map fun rest => ([], rest))
  | rule {r : ρ} {cs : List Char} {answer : Option (List (Tree ρ) × List Char)} :
      Parses g (g.inside r) cs answer →
        Parses g (.rule r) cs (answer.map fun found =>
          (g.trees r (cs.take (cs.length - found.2.length)) found.1, found.2))
  | seqFails {first second : Peg ρ} {cs : List Char} :
      Parses g first cs none → Parses g (.seq first second) cs none
  | seq {first second : Peg ρ} {cs between : List Char} {front : List (Tree ρ)}
      {answer : Option (List (Tree ρ) × List Char)} :
      Parses g first cs (some (front, between)) → Parses g second between answer →
        Parses g (.seq first second) cs (answer.map fun found => (front ++ found.1, found.2))
  | choiceFirst {first second : Peg ρ} {cs : List Char} {found : List (Tree ρ) × List Char} :
      Parses g first cs (some found) → Parses g (.choice first second) cs (some found)
  | choiceSecond {first second : Peg ρ} {cs : List Char}
      {answer : Option (List (Tree ρ) × List Char)} :
      Parses g first cs none → Parses g second cs answer →
        Parses g (.choice first second) cs answer
  | manyStops {part : Peg ρ} {cs : List Char} :
      Parses g part cs none → Parses g (.many part) cs (some ([], cs))
  | many {part : Peg ρ} {cs between : List Char} {front : List (Tree ρ)}
      {answer : Option (List (Tree ρ) × List Char)} :
      Parses g part cs (some (front, between)) → Parses g (.many part) between answer →
        Parses g (.many part) cs (answer.map fun found => (front ++ found.1, found.2))
  | absentFails {part : Peg ρ} {cs : List Char} {found : List (Tree ρ) × List Char} :
      Parses g part cs (some found) → Parses g (.absent part) cs none
  | absent {part : Peg ρ} {cs : List Char} :
      Parses g part cs none → Parses g (.absent part) cs (some ([], cs))

namespace Parses

variable {g : PegGrammar ρ} {p first second : Peg ρ} {cs rest between : List Char}
  {answer other : Option (List (Tree ρ) × List Char)} {front back : List (Tree ρ)}

/-- An expression makes one thing of a text. -/
theorem unique
    (one : g.Parses p cs answer)
    (two : g.Parses p cs other) :
    answer = other := by
  induction one generalizing other with
  | empty => cases two; rfl
  | terminal => cases two; rfl
  | rule _ inside =>
      cases two with
      | rule two => rw [inside two]
  | seqFails _ fails =>
      cases two with
      | seqFails => rfl
      | seq two _ => cases fails two
  | seq _ _ firstSame secondSame =>
      cases two with
      | seqFails two => cases firstSame two
      | seq twoFirst twoSecond =>
          cases firstSame twoFirst
          rw [secondSame twoSecond]
  | choiceFirst _ firstSame =>
      cases two with
      | choiceFirst two => exact firstSame two
      | choiceSecond two _ => cases firstSame two
  | choiceSecond _ _ firstFails secondSame =>
      cases two with
      | choiceFirst two => cases firstFails two
      | choiceSecond _ two => exact secondSame two
  | manyStops _ fails =>
      cases two with
      | manyStops => rfl
      | many two _ => cases fails two
  | many _ _ partSame othersSame =>
      cases two with
      | manyStops two => cases partSame two
      | many twoPart twoOthers =>
          cases partSame twoPart
          rw [othersSame twoOthers]
  | absentFails _ same =>
      cases two with
      | absentFails => rfl
      | absent two => cases same two
  | absent _ fails =>
      cases two with
      | absentFails two => cases fails two
      | absent => rfl

theorem found
    {t : Terminal}
    (after : t.after? cs = some rest) :
    g.Parses (.terminal t) cs (some ([], rest)) := by
  have matched : g.Parses (.terminal t) cs _ := .terminal
  rwa [after] at matched

theorem notFound
    {t : Terminal}
    (after : t.after? cs = none) :
    g.Parses (.terminal t) cs none := by
  have matched : g.Parses (.terminal t) cs _ := .terminal
  rwa [after] at matched

theorem andThen
    (one : g.Parses first cs (some (front, between)))
    (two : g.Parses second between (some (back, rest))) :
    g.Parses (.seq first second) cs (some (front ++ back, rest)) :=
  seq one two

theorem andThenFails
    (one : g.Parses first cs (some (front, between)))
    (two : g.Parses second between none) :
    g.Parses (.seq first second) cs none :=
  seq one two

theorem more
    (one : g.Parses p cs (some (front, between)))
    (others : g.Parses (.many p) between (some (back, rest))) :
    g.Parses (.many p) cs (some (front ++ back, rest)) :=
  many one others

/-- The first alternative that matches decides. -/
theorem firstOf_head
    {alternatives : List (Peg ρ)}
    {found : List (Tree ρ) × List Char}
    (one : g.Parses p cs (some found)) :
    g.Parses (.firstOf (p :: alternatives)) cs (some found) := by
  cases alternatives with
  | nil => exact one
  | cons => exact .choiceFirst one

theorem firstOf_tail
    {alternatives : List (Peg ρ)}
    (one : g.Parses p cs none)
    (others : g.Parses (.firstOf alternatives) cs answer) :
    g.Parses (.firstOf (p :: alternatives)) cs answer := by
  cases alternatives with
  | nil =>
      obtain rfl := others.unique (.absentFails .empty)
      exact one
  | cons => exact .choiceSecond one others

/-- A rule matches what its body matches. -/
theorem ofInside
    {r : ρ}
    {parts : List (Tree ρ)}
    (inside : g.Parses (g.inside r) cs (some (parts, rest))) :
    g.Parses (.rule r) cs
      (some (g.trees r (cs.take (cs.length - rest.length)) parts, rest)) :=
  rule inside

theorem ofInsideFails
    {r : ρ}
    (inside : g.Parses (g.inside r) cs none) :
    g.Parses (.rule r) cs none :=
  rule inside

/-- An atomic rule leaves the text that it covers. -/
theorem ofAtomic
    {r : ρ}
    {text : List Char}
    {parts : List (Tree ρ)}
    (atomic : g.kind r = .atomic)
    (inside : g.Parses (g.body r) (text ++ rest) (some (parts, rest))) :
    g.Parses (.rule r) (text ++ rest) (some ([.node r text []], rest)) := by
  have asInside : g.inside r = g.body r := by simp [PegGrammar.inside, atomic]
  have matched := ofInside (asInside ▸ inside)
  simpa [PegGrammar.trees, atomic] using matched

end Parses

end PegGrammar

end FullTextQuery
