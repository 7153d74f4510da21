import FullTextQuery.Proofs.Query.RelaidUnits
import FullTextQuery.Proofs.Syntax.Expressions

namespace FullTextQuery.Query

/-!
# Expressions laid out anew

The rules for expressions keep what they do on texts laid out anew.  A name that is no
function is written alike in both texts: where a name stands for an item, no call is
there, so the name may not have been written in another case.
-/

open Matcher Grammar

variable {α β : Type} {cs cs' : List Char} {bound bound' : Nat}

section Readings

variable {reading reading' : Reading α}

/-- Readings that go on the same stay the same. -/
theorem SameReading.bind
    {f g : α → Reading β}
    (same : SameReading reading reading')
    (sameNext : ∀ value, SameReading (f value) (g value)) :
    SameReading (reading >>= f) (reading' >>= g) := by
  cases reading with
  | error => cases reading' with
    | error => rfl
    | ok => cases same
  | ok value => cases reading' with
    | error => cases same
    | ok =>
        cases same
        exact sameNext value

theorem SameReading.map
    (same : SameReading reading reading')
    (f : α → β) :
    SameReading (reading.map f) (reading'.map f) := by
  cases reading <;> cases reading' <;> cases same <;> rfl

/-- Lists of the same readings are collected the same. -/
theorem sameReading_collect
    {readings readings' : List (Reading α)}
    (same : List.Forall₂ SameReading readings readings') :
    SameReading (collect readings) (collect readings') := by
  induction same with
  | nil => rfl
  | cons first _ inductionHypothesis =>
      exact first.bind fun value => inductionHypothesis.bind fun values => rfl

/-- Lists of the same readings are grouped the same. -/
theorem sameReading_groupLeft
    {combine : Expr → Expr → Expr}
    {first first' : Reading Expr}
    {others others' : List (Reading Expr)}
    (same : SameReading first first')
    (sameOthers : List.Forall₂ SameReading others others') :
    SameReading (groupLeft combine first others) (groupLeft combine first' others') := by
  unfold groupLeft
  induction sameOthers generalizing first first' with
  | nil => exact same
  | cons next _ inductionHypothesis =>
      exact inductionHypothesis (same.bind fun left => next.bind fun right => rfl)

/-- One operator, and readings of one operand. -/
def SameRight
    (right right' : Comparison × Reading Expr) :
    Prop :=
  right'.1 = right.1 ∧ SameReading right.2 right'.2

theorem sameReading_compared
    {left left' : Reading Expr}
    {right right' : Option (Comparison × Reading Expr)}
    (same : SameReading left left')
    (sameRight : Option.Rel SameRight right right') :
    SameReading (Syntax.compared left right) (Syntax.compared left' right') := by
  cases sameRight with
  | none => exact same
  | @some found found' sameRight =>
      obtain ⟨op, other⟩ := found
      obtain ⟨op', other'⟩ := found'
      obtain ⟨sameOp, sameOther⟩ := sameRight
      obtain rfl : op' = op := sameOp
      exact same.bind fun l => sameOther.bind fun r => rfl

end Readings

/-- Parts with commas between them. -/
theorem Keeps.separated
    {related : α → α → Prop}
    {m m' : Matcher α}
    (keeps : Keeps Aligned bound bound' 1 related m m') :
    Keeps Aligned bound bound' 1 (List.Forall₂ related) (Grammar.separated m)
      (Grammar.separated m') := by
  have comma : Keeps Aligned bound bound' 1 related
      (sign ',' >>= fun _ => Grammar.layout >>= fun _ => m)
      (sign ',' >>= fun _ => Grammar.layout >>= fun _ => m') :=
    (keeps_sign (by simp)).andThen le_rfl fun _ _ _ =>
      keeps.layout.atLeast (by omega)
  refine keeps.andThen le_rfl fun value value' isRelated => ?_
  exact comma.many.finish le_rfl (fun _ _ => rfl) (fun _ _ => rfl) fun _ _ areRelated =>
    .cons isRelated areRelated

/--
Matchers of nested expressions: they keep what they do, and the one of the first text
follows the grammar.
-/
structure KeepsNested
    (bound bound' : Nat)
    (m m' : Matcher (Reading Expr)) :
    Prop where
  keeps : Keeps Aligned bound bound' 1 SameReading m m'
  mirrors : Syntax.Mirrors bound 1 (.rule .expr) (Syntax.Stands .expr Syntax.exprOf) m

section Nested

variable {m m' : Matcher (Reading Expr)}

/-- Where no call is found none is there, however deep its arguments may be nested. -/
theorem KeepsNested.not_isCall
    (nested : KeepsNested bound bound' m m')
    (short : cs.length < bound + 1)
    (noCall : (call m cs).matched? = none) :
    ¬ IsCall cs := by
  intro isCall
  obtain ⟨⟨reading, rest⟩, found⟩ := Option.isSome_iff_exists.mp isCall
  have fails := Syntax.mirrors_call nested.mirrors cs short
  have takes := Syntax.mirrors_call Syntax.mirrors_expr cs (Nat.lt_succ_self cs.length)
  rw [noCall] at fails
  rw [found] at takes
  cases fails with
  | fails parsesNone =>
      cases takes with
      | found parses => cases parses.unique parsesNone

/-- A call is read the same in a text relaid if its arguments are. -/
theorem keeps_call
    (nested : KeepsNested bound bound' m m') :
    Keeps Aligned (bound + 1) (bound' + 1) 1 SameReading (call m) (call m') := by
  have function : Keeps Aligned (bound + 1) (bound' + 1) 1
      (fun name name' => name'.toList.map Char.toLower = name.toList.map Char.toLower)
      Grammar.name Grammar.name :=
    .token fun _ _ aligned => (keeps_scanName aligned).weaken (fun _ _ same => same.1) le_rfl
  refine .rule (function.spacedThenShorter fun name name' lowered => ?_)
  refine (keeps_sign (by simp)).spacedThen (by omega) fun _ _ _ => ?_
  refine (nested.keeps.separated.optional fun _ _ aligned => aligned.behind).spacedThen le_rfl
    fun args args' sameArgs => ?_
  refine (keeps_sign (by simp)).finish (by omega) (fun _ _ => rfl) (fun _ _ => rfl)
    fun _ _ _ => ?_
  rw [lowered]
  refine SameReading.map (sameReading_collect ?_) _
  cases sameArgs with
  | none => exact .nil
  | some sameArgs => exact sameArgs

/-- Parentheses are read the same in a text relaid if what is inside is. -/
theorem keeps_parenthesised
    (nested : KeepsNested bound bound' m m') :
    Keeps Aligned (bound + 1) (bound' + 1) 1 SameReading (parenthesised m) (parenthesised m') := by
  refine (keeps_sign (by simp)).spacedThenShorter fun _ _ _ => ?_
  refine nested.keeps.spacedThen (by omega) fun inner inner' same => ?_
  exact (keeps_sign (by simp)).finish (by omega) (fun _ _ => rfl) (fun _ _ => rfl)
    fun _ _ _ => same

/-- A part that answers the same for both texts, wrapped as it is. -/
theorem Keeps.reading
    {part : Matcher α}
    {wrap : α → Reading Expr}
    (keeps : Keeps Aligned bound bound' 1 (· = ·) part part) :
    Keeps Aligned bound bound' 1 SameReading (part.andThen fun value => succeed (wrap value))
      (part.andThen fun value => succeed (wrap value)) :=
  keeps.finish le_rfl (fun _ _ => rfl) (fun _ _ => rfl)
    fun _ _ same => congrArg _ (congrArg wrap same)

/-- An operand is read the same in a text relaid if expressions inside it are. -/
theorem keeps_operand
    (nested : KeepsNested bound bound' m m') :
    Keeps Aligned (bound + 1) (bound' + 1) 1 SameReading (operand m) (operand m') := by
  refine Keeps.rule fun cs cs' aligned short short' => ?_
  simp only [matched?_firstOf_cons, matched?_firstOf_nil, Option.or_none]
  refine (keeps_call nested aligned short short').or fun noCall => ?_
  refine (keeps_member.reading aligned short short').or fun _ => ?_
  refine (keeps_literal aligned short short').or fun _ => ?_
  refine (keeps_parameter.reading aligned short short').or fun _ => ?_
  refine (keeps_parenthesised nested aligned short short').or fun _ => ?_
  -- a name that is no function is written alike in both texts
  rw [matched?_andThen, matched?_andThen, Grammar.name, matched?_token, matched?_token]
  have same := keeps_scanName aligned
  generalize scanName? cs = answer at same
  generalize scanName? cs' = answer' at same
  cases same with
  | fails => exact .fails
  | found sameName alignedRest shorter shorter' =>
      obtain rfl := sameName.2.resolve_right (nested.not_isCall short noCall)
      exact .found rfl alignedRest shorter shorter'

/-- A comparison is read the same in a text relaid if its operands are. -/
theorem keeps_comparison
    (operands : Keeps Aligned bound bound' 1 SameReading (operand m) (operand m')) :
    Keeps Aligned bound bound' 1 SameReading (comparison m) (comparison m') := by
  have second : Keeps Aligned bound bound' 1 SameRight
      (spaced operator >>= fun op => operand m >>= fun other => pure (op, other))
      (spaced operator >>= fun op => operand m' >>= fun other => pure (op, other)) := by
    refine keeps_operator.spacedThen le_rfl fun op op' same => ?_
    exact operands.finish (by omega) (fun _ _ => rfl) (fun _ _ => rfl)
      fun _ _ sameOther => ⟨same.symm, sameOther⟩
  refine .rule (operands.andThen le_rfl fun first first' sameFirst => ?_)
  refine second.optionalBehind.finish (f := Syntax.compared first)
    (g := Syntax.compared first') le_rfl ?_ ?_ fun _ _ => sameReading_compared sameFirst
  · rintro (_ | ⟨op, other⟩) rest <;> rfl
  · rintro (_ | ⟨op, other⟩) rest <;> rfl

/-- A negation is read the same in a text relaid if comparisons are. -/
theorem keeps_negation
    (comparisons : Keeps Aligned bound bound' 1 SameReading (comparison m) (comparison m'))
    {count count' : Nat}
    (within : count ≤ bound)
    (within' : count' ≤ bound') :
    Keeps Aligned count count' 1 SameReading (negation m count) (negation m' count') := by
  induction count generalizing count' with
  | zero => exact fun cs cs' _ short _ => absurd short (by omega)
  | succ count inductionHypothesis =>
      cases count' with
      | zero => exact fun cs cs' _ _ short' => absurd short' (by omega)
      | succ count' =>
          have more := inductionHypothesis (by omega) (by omega : count' ≤ bound')
          refine .rule (.orElse ?_ (comparisons.mono within within'))
          refine (keeps_keyword (by decide)).spacedThenShorter fun _ _ _ => ?_
          exact more.finish (by omega) (fun _ _ => rfl) (fun _ _ => rfl) fun _ _ same =>
            same.map Expr.not

theorem keeps_unary
    (comparisons : Keeps Aligned bound bound' 1 SameReading (comparison m) (comparison m')) :
    Keeps Aligned bound bound' 1 SameReading (unary m) (unary m') :=
  fun _ _ aligned short short' =>
    keeps_negation comparisons short short' aligned (Nat.lt_succ_self _) (Nat.lt_succ_self _)

/-- A chain is read the same in a text relaid if its parts are. -/
theorem keeps_keywordChain
    {word : String}
    {combine : Expr → Expr → Expr}
    (reserved : word.toList ∈ reservedWords)
    (parts : Keeps Aligned bound bound' 1 SameReading m m') :
    Keeps Aligned bound bound' 1 SameReading (keywordChain word combine m)
      (keywordChain word combine m') := by
  have next : Keeps Aligned bound bound' 1 SameReading (spaced (keyword word) >>= fun _ => m)
      (spaced (keyword word) >>= fun _ => m') :=
    (keeps_keyword reserved).spacedThen le_rfl fun _ _ _ =>
      parts.atLeast (by omega)
  refine .rule (parts.andThen le_rfl fun first first' sameFirst => ?_)
  exact next.many.finish le_rfl (fun _ _ => rfl) (fun _ _ => rfl) fun _ _ sameOthers =>
    sameReading_groupLeft sameFirst sameOthers

end Nested

/-- Expressions are read alike, however deep they may be nested on the two sides. -/
theorem keeps_exprWithin
    (depth depth' : Nat) :
    Keeps Aligned depth depth' 1 SameReading (exprWithin depth) (exprWithin depth') := by
  induction depth generalizing depth' with
  | zero => exact fun cs cs' _ short _ => absurd short (by omega)
  | succ depth inductionHypothesis =>
      cases depth' with
      | zero => exact fun cs cs' _ _ short' => absurd short' (by omega)
      | succ depth' =>
          have nested : KeepsNested depth depth' (exprWithin depth) (exprWithin depth') :=
            ⟨inductionHypothesis depth', Syntax.mirrors_exprWithin depth⟩
          have unaries := keeps_unary (keeps_comparison (keeps_operand nested))
          exact .rule (keeps_keywordChain (by decide) (keeps_keywordChain (by decide) unaries))

/-- An expression is read the same in a text relaid. -/
theorem keeps_expr :
    Keeps Aligned bound bound' 1 SameReading expr expr :=
  fun cs cs' aligned _ _ =>
    keeps_exprWithin (cs.length + 1) (cs'.length + 1) aligned (Nat.lt_succ_self _)
      (Nat.lt_succ_self _)

theorem keepsNested_expr :
    KeepsNested bound bound' expr expr :=
  ⟨keeps_expr, Syntax.mirrors_expr⟩

end FullTextQuery.Query
