import FullTextQuery.Proofs.Syntax.Literals

namespace FullTextQuery.Syntax

/-!
# Expressions

The matcher of every rule for expressions takes what the rule matches, and the
tree stands for what the matcher reads.  A nested expression stands behind at
least one character, so the rules are gone through for growing texts.
-/

open PegGrammar Query Query.Matcher

variable {bound depth : Nat} {cs : List Char}

/-- The matcher of a keyword mirrors its rule. -/
theorem mirrors_keyword
    (w : String)
    (someChar : w.toList ≠ []) :
    Mirrors bound 1 (.rule (.keyword w)) (Token (.keyword w) fun _ _ => True)
      (Grammar.keyword w) := by
  refine .ofTakes fun cs => ?_
  rw [Grammar.keyword, matched?_token]
  exact takes_wholeWord rfl rfl someChar

theorem mirrors_operator :
    Mirrors bound 1 (.rule .operator)
      (Token .operator fun op text => comparisonOf (.node .operator text []) = .ok op)
      Grammar.operator := by
  refine .ofTakes fun cs => ?_
  rw [Grammar.operator, matched?_token]
  exact takes_operator

theorem takes_nameMatcher
    (cs : List Char) :
    Takes (.rule .name) (Token .name fun name text => text = name.toList) cs
      (Grammar.name cs).matched? := by
  rw [Grammar.name, matched?_token]
  exact takes_name

/-- The matcher of properties mirrors their rule. -/
theorem mirrors_member :
    Mirrors bound 1 (.rule .member) (fun e => Stands .member atomOf (.ok e))
      Grammar.member := by
  refine .rule (fun _ _ => rfl) (.ofTakes fun cs => ?_)
  refine (takes_nameMatcher cs).andThen ?_
  rintro item _ ⟨_, rfl, rfl⟩ cs
  refine (Takes.sign '.' cs).andThen ?_
  rintro _ _ rfl cs
  refine (takes_nameMatcher cs).finish (fun _ _ => rfl) ?_
  rintro property _ ⟨_, rfl, rfl⟩ text
  refine ⟨_, rfl, rfl, ?_⟩
  have built : atomOf (.node .member text
      [.node .name item.toList [], .node .name property.toList []]) =
        .ok (.member item property) := by
    simp [atomOf]
  rw [List.singleton_append, List.nil_append, built]
  exact .ok (by simp [integersFit_node])

theorem mirrors_parameter :
    Mirrors bound 1 (.rule .parameter) (fun e => Stands .parameter atomOf (.ok e))
      Grammar.parameter := by
  refine .rule (fun _ _ => rfl) (.ofTakes fun cs => ?_)
  refine (Takes.sign '@' cs).andThen ?_
  rintro _ _ rfl cs
  refine (takes_nameMatcher cs).finish (fun _ _ => rfl) ?_
  rintro name _ ⟨_, rfl, rfl⟩ text
  refine ⟨_, rfl, rfl, ?_⟩
  have built : atomOf (.node .parameter text [.node .name name.toList []]) =
      .ok (.parameter name) := by
    simp [atomOf]
  rw [List.nil_append, built]
  exact .ok (by simp [integersFit_node])

section Nested

variable {expr : Matcher (Reading Expr)}

/-- The matcher of calls mirrors their rule if that of expressions does. -/
theorem mirrors_call
    (nested : Mirrors depth 1 (.rule .expr) (Stands .expr exprOf) expr) :
    Mirrors (depth + 1) 1 (.rule .call) (Stands .call atomOf) (Grammar.call expr) := by
  refine .rule (fun _ _ => rfl) ?_
  refine (Mirrors.ofTakes takes_nameMatcher).spacedThenShorter ?_
  rintro function _ ⟨_, rfl, rfl⟩
  refine (Mirrors.sign '(').spacedThen (by omega) ?_
  rintro _ _ rfl
  have args : Mirrors depth 0 (.optional _)
      (fun args trees => Gathered (Stands .expr exprOf) (args.getD []) trees)
      (optional (Grammar.separated expr)) :=
    nested.separated.optional .nil fun _ _ gathered => gathered
  refine args.spacedThen le_rfl ?_
  intro args trees gathered
  refine (Mirrors.sign ')').finish (by omega) (fun _ _ => rfl) ?_
  rintro _ _ rfl text
  refine ⟨_, rfl, rfl, ?_⟩
  have settles := (settles_argsOf gathered).map
    (Expr.call (String.ofList (function.toList.map Char.toLower)))
  simp only [List.nil_append, List.append_nil, List.singleton_append]
  rw [atomOf]
  exact settles.congr (by simp [integersFit_node])

/-- What is inside an operand. -/
def StandsForAtom
    (reading : Reading Expr)
    (trees : List (Tree Rule)) :
    Prop :=
  ∃ t : Tree Rule, trees = [t] ∧ Settles (IntegersFit t) (atomOf t) reading

/-- The matcher of parentheses mirrors their rule if that of expressions does. -/
theorem mirrors_parenthesised
    (nested : Mirrors depth 1 (.rule .expr) (Stands .expr exprOf) expr) :
    Mirrors (depth + 1) 1
      (.seq (chars "(") (.seq layout (.seq (.rule .expr) (.seq layout (chars ")")))))
      StandsForAtom (Grammar.parenthesised expr) := by
  refine (Mirrors.sign '(').spacedThenShorter ?_
  rintro _ _ rfl
  refine nested.spacedThen (by omega) ?_
  rintro reading _ ⟨t, rfl, isExpr, settles⟩
  refine (Mirrors.sign ')').finish (by omega) (fun _ _ => rfl) ?_
  rintro _ _ rfl
  refine ⟨t, rfl, ?_⟩
  obtain ⟨r, text, parts⟩ := t
  cases isExpr
  rw [exprOf] at settles
  rwa [atomOf]

/-- The matcher of operands mirrors their rule if that of expressions does. -/
theorem mirrors_operand
    (nested : Mirrors depth 1 (.rule .expr) (Stands .expr exprOf) expr) :
    Mirrors (depth + 1) 1 (.rule .operand) (Stands .operand operandOf)
      (Grammar.operand expr) := by
  have ofStands : ∀ {r : Rule} (reading : Reading Expr) (trees : List (Tree Rule)),
      Stands r atomOf reading trees → StandsForAtom reading trees := by
    rintro r reading _ ⟨t, rfl, -, settles⟩
    exact ⟨t, rfl, settles⟩
  have ofName : ∀ item trees, Token .name (fun name text => text = name.toList) item trees →
      StandsForAtom (.ok (.item item)) trees := by
    rintro item _ ⟨_, rfl, rfl⟩
    refine ⟨_, rfl, ?_⟩
    rw [atomOf, String.ofList_toList]
    exact .ok (integersFit_leaf (by simp) (by simp))
  have inside : Mirrors (depth + 1) 1 (grammar.inside .operand) StandsForAtom
      (firstOf [Grammar.call expr, Grammar.member.andThen fun e => succeed (.ok e),
        Grammar.literal, Grammar.parameter.andThen fun e => succeed (.ok e),
        Grammar.parenthesised expr, Grammar.name.andThen fun item => succeed (.ok (.item item))]) :=
    ((mirrors_call nested).weaken ofStands le_rfl).orElse
      ((mirrors_member.finish le_rfl (fun _ _ => rfl) fun _ => ofStands _).orElse
        ((mirrors_literal.weaken ofStands le_rfl).orElse
          ((mirrors_parameter.finish le_rfl (fun _ _ => rfl) fun _ => ofStands _).orElse
            ((mirrors_parenthesised nested).orElse
              ((Mirrors.ofTakes takes_nameMatcher).finish le_rfl (fun _ _ => rfl) ofName).only))))
  refine .rule (fun _ _ => rfl) (inside.weaken ?_ le_rfl)
  rintro reading _ ⟨t, rfl, settles⟩ text
  refine ⟨_, rfl, rfl, ?_⟩
  rw [operandOf]
  exact settles.congr (by simp [integersFit_node])

/-- The trees behind the left operand of a comparison. -/
def StandsForRight
    (second : Option (Comparison × Reading Expr))
    (trees : List (Tree Rule)) :
    Prop :=
  match second with
  | none => trees = []
  | some (op, right) =>
      ∃ text r, trees = [.node .operator text [], r] ∧
        comparisonOf (.node .operator text []) = .ok op ∧
          Settles (IntegersFit r) (operandOf r) right

/-- What an operand and an optional second one are read as. -/
def compared
    (left : Reading Expr) :
    Option (Comparison × Reading Expr) → Reading Expr
  | none => left
  | some (op, right) => do
      let l ← left
      let r ← right
      return .compare l op r

/-- The tree of a comparison stands for the operands compared. -/
theorem settles_comparison
    {l : Tree Rule}
    {left : Reading Expr}
    {second : Option (Comparison × Reading Expr)}
    {trees : List (Tree Rule)}
    (leftSettles : Settles (IntegersFit l) (operandOf l) left)
    (right : StandsForRight second trees)
    (text : List Char) :
    Settles (IntegersFit (.node .comparison text (l :: trees)))
      (exprOf (.node .comparison text (l :: trees))) (compared left second) := by
  match second with
  | none =>
      subst right
      rw [exprOf]
      exact leftSettles.congr (by simp [integersFit_node])
  | some (op, other) =>
      obtain ⟨opText, r, rfl, isOperator, rightSettles⟩ := right
      rw [exprOf]
      · simp only [isOperator, Except.ok_bind]
        refine (leftSettles.bind fun e => rightSettles.map (Expr.compare e op)).congr ?_
        simp [integersFit_node]

/-- The matcher of comparisons mirrors their rule if that of operands does. -/
theorem mirrors_comparison
    (operands : Mirrors bound 1 (.rule .operand) (Stands .operand operandOf)
      (Grammar.operand expr)) :
    Mirrors bound 1 (.rule .comparison) (Stands .comparison exprOf)
      (Grammar.comparison expr) := by
  refine .rule (fun _ _ => rfl) ?_
  refine operands.andThen le_rfl ?_
  rintro left _ ⟨l, rfl, -, leftSettles⟩
  have second : Mirrors bound 1
      (.seq (.rule .operator) (.seq layout (.rule .operand)))
      (fun found trees => StandsForRight (some found) trees)
      (Grammar.spaced Grammar.operator >>= fun op => Grammar.operand expr >>= fun other =>
        pure (op, other)) := by
    refine mirrors_operator.spacedThen le_rfl ?_
    rintro op _ ⟨opText, rfl, isOperator⟩
    refine operands.finish (by omega) (fun _ _ => rfl) ?_
    rintro right _ ⟨r, rfl, -, rightSettles⟩
    exact ⟨opText, r, rfl, isOperator, rightSettles⟩
  have optional : Follows bound 0 _ StandsForRight _ :=
    Follows.optional second rfl fun _ _ stands => stands
  refine optional.finish (f := compared left) le_rfl ?_ ?_
  · rintro (_ | ⟨op, other⟩) rest <;> rfl
  · intro second trees right text
    exact ⟨_, rfl, rfl, settles_comparison leftSettles right text⟩

/-- The matcher of negations mirrors their rule if that of comparisons does. -/
theorem mirrors_negation
    (comparisons : Mirrors bound 1 (.rule .comparison) (Stands .comparison exprOf)
      (Grammar.comparison expr))
    {count : Nat}
    (enough : count ≤ bound) :
    Mirrors count 1 (.rule .negation) (Stands .negation exprOf)
      (Grammar.negation expr count) := by
  induction count with
  | zero => exact fun cs short => absurd short (by omega)
  | succ count inductionHypothesis =>
      refine .rule (fun _ _ => rfl) (.orElse ?_ ?_)
      · refine (mirrors_keyword "not" (by simp)).spacedThenShorter ?_
        rintro _ _ ⟨notText, rfl, -⟩
        refine (inductionHypothesis (by omega)).finish (by omega) (fun _ _ => rfl) ?_
        rintro reading _ ⟨t, rfl, -, settles⟩ text
        refine ⟨_, rfl, rfl, ?_⟩
        rw [List.singleton_append, exprOf, if_pos Tree.rule_node]
        exact (settles.map Expr.not).congr (by simp [integersFit_node])
      · refine (comparisons.mono enough).weaken ?_ le_rfl
        rintro reading _ ⟨t, rfl, isComparison, settles⟩ text
        refine ⟨_, rfl, rfl, ?_⟩
        rw [exprOf, if_neg (by simp [isComparison])]
        exact settles.congr (by simp [integersFit_node])

theorem mirrors_unary
    (comparisons : Mirrors bound 1 (.rule .comparison) (Stands .comparison exprOf)
      (Grammar.comparison expr)) :
    Mirrors bound 1 (.rule .negation) (Stands .negation exprOf) (Grammar.unary expr) := by
  intro cs short
  exact mirrors_negation comparisons (by omega : cs.length + 1 ≤ bound) cs (by omega)

/-- A chain of parts with a keyword between them. -/
theorem mirrors_keywordChain
    {r part : Rule}
    {w : String}
    {combine : Expr → Expr → Expr}
    {m : Matcher (Reading Expr)}
    (someChar : w.toList ≠ [])
    (leaves : ∀ text parts, grammar.trees r text parts = [.node r text parts])
    (isChain : grammar.inside r = .seq (.rule part) (.seq layout
      (.optional (.seq (.seq (.rule (.keyword w)) (.seq layout (.rule part)))
        (.many (.seq layout (.seq (.rule (.keyword w)) (.seq layout (.rule part)))))))))
    (builds : ∀ text parts, exprOf (.node r text parts) = exprsOf parts >>= foldLeft combine)
    (noKeyword : ∀ word, part ≠ .keyword word)
    (fits : ∀ text parts, IntegersFit (.node r text parts) ↔ AllIntegersFit parts)
    (parts : Mirrors bound 1 (.rule part) (Stands part exprOf) m) :
    Mirrors bound 1 (.rule r) (Stands r exprOf) (Grammar.keywordChain w combine m) := by
  refine .rule leaves ?_
  rw [isChain]
  refine parts.andThen le_rfl ?_
  intro start front isRead
  have behind : Mirrors bound 1 (.seq (.rule (.keyword w)) (.seq layout (.rule part)))
      (BehindKeyword part) (Grammar.spaced (Grammar.keyword w) >>= fun _ => m) := by
    refine (mirrors_keyword w someChar).spacedThen le_rfl ?_
    rintro _ _ ⟨text, rfl, -⟩
    refine parts.weaken ?_ (by omega)
    rintro reading _ ⟨t, rfl, isPart, settles⟩
    exact ⟨w, text, t, rfl, isPart, settles⟩
  refine (Follows.many behind).finish le_rfl (fun _ _ => rfl) ?_
  intro readings trees gathered text
  refine ⟨_, rfl, rfl, ?_⟩
  rw [builds]
  exact (settles_chain noKeyword isRead gathered).congr (fits _ _)

end Nested

/-- An expression is taken as the rule for expressions takes it, and stands for what is read. -/
theorem mirrors_exprWithin
    (depth : Nat) :
    Mirrors depth 1 (.rule .expr) (Stands .expr exprOf) (Grammar.exprWithin depth) := by
  induction depth with
  | zero => exact fun cs short => absurd short (by omega)
  | succ depth nested =>
      have unaries := mirrors_unary (mirrors_comparison (mirrors_operand nested))
      have conjunctions : Mirrors (depth + 1) 1 (.rule .conjunction) (Stands .conjunction exprOf)
          (Grammar.conjunction (Grammar.exprWithin depth)) :=
        mirrors_keywordChain (by simp) (fun _ _ => rfl) rfl (fun _ _ => by rw [exprOf]) (by simp)
          (fun _ _ => integersFit_node (by simp) (by simp)) unaries
      have disjunctions : Mirrors (depth + 1) 1 (.rule .disjunction) (Stands .disjunction exprOf)
          (Grammar.disjunction (Grammar.exprWithin depth)) :=
        mirrors_keywordChain (by simp) (fun _ _ => rfl) rfl (fun _ _ => by rw [exprOf]) (by simp)
          (fun _ _ => integersFit_node (by simp) (by simp)) conjunctions
      refine .rule (fun _ _ => rfl) (disjunctions.weaken ?_ le_rfl)
      rintro reading _ ⟨t, rfl, -, settles⟩ text
      refine ⟨_, rfl, rfl, ?_⟩
      rw [exprOf, innerOf]
      exact settles.congr (by simp [integersFit_node])

/-- The matcher of expressions mirrors their rule. -/
theorem mirrors_expr :
    Mirrors bound 1 (.rule .expr) (Stands .expr exprOf) Grammar.expr :=
  fun cs _ => mirrors_exprWithin (cs.length + 1) cs (by omega)

end FullTextQuery.Syntax
