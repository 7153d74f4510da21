import FullTextQuery.Proofs.Query.CanonicalUnits

namespace FullTextQuery.Query

/-!
# Canonical texts of operands

A name, a literal, a call and anything in parentheses are read back at the innermost
level of the grammar, wherever the operand ends.  A call and a parenthesis go back to
the outermost level, which reads what is inside.
-/

open Matcher Grammar

variable {α : Type} {cs rest : List Char} {m : Matcher (Reading Expr)}

/-- Whether a matcher takes a text off whatever it ends in front of, below a length. -/
def Reads
    (part : Matcher α)
    (ends : List Char → Prop)
    (limit : Nat)
    (value : α)
    (text : List Char) :
    Prop :=
  ∀ rest, ends rest → (text ++ rest).length < limit →
    (part (text ++ rest)).matched? = some (value, rest)

/-- Whether a matcher reads a text that may itself stand behind another one. -/
structure ReadsNext
    (part : Matcher α)
    (ends : List Char → Prop)
    (limit : Nat)
    (value : α)
    (text : List Char) :
    Prop where
  reads : Reads part ends limit value text
  follows : ∀ more, ends (text ++ more)
  visible : text ≠ []

section Repetition

variable {part : Matcher α} {ends : List Char → Prop} {limit : Nat} {values : List α}
  {texts : List (List Char)}

/-- Texts behind one another are read one after another, until the part no longer matches. -/
theorem matched?_upTo_texts
    (each : List.Forall₂ (ReadsNext part ends limit) values texts)
    (endsRest : ends rest)
    (notFound : (part rest).matched? = none)
    (short : (texts.flatten ++ rest).length < limit)
    {count : Nat}
    (enough : texts.length ≤ count) :
    (part.upTo count (texts.flatten ++ rest)).matched? = some (values, rest) := by
  induction each generalizing count with
  | nil => exact matched?_upTo_of_none notFound count
  | @cons value text values texts first others inductionHypothesis =>
      rw [List.flatten_cons, List.append_assoc] at short ⊢
      cases count with
      | zero => simp at enough
      | succ count =>
          have endsHere : ends (texts.flatten ++ rest) := by
            cases others with
            | nil => exact endsRest
            | cons next _ =>
                rw [List.flatten_cons, List.append_assoc]
                exact next.follows _
          have shorter : (texts.flatten ++ rest).length < limit := by
            simp only [List.length_append] at short ⊢
            omega
          exact matched?_upTo_of_some (first.reads _ endsHere short)
            (inductionHypothesis shorter (by simpa using enough))

/-- As many texts are read as there are. -/
theorem matched?_many_texts
    (each : List.Forall₂ (ReadsNext part ends limit) values texts)
    (endsRest : ends rest)
    (notFound : (part rest).matched? = none)
    (short : (texts.flatten ++ rest).length < limit) :
    (part.many (texts.flatten ++ rest)).matched? = some (values, rest) := by
  refine matched?_upTo_texts each endsRest notFound short ?_
  have counted : texts.length ≤ texts.flatten.length := by
    clear short
    induction each with
    | nil => simp
    | cons first _ inductionHypothesis =>
        have := List.length_pos_iff.mpr first.visible
        simp only [List.length_cons, List.flatten_cons, List.length_append]
        omega
  rw [List.length_append]
  omega

/-- A text behind a comma. -/
def behindComma
    (text : List Char) :
    List Char :=
  ',' :: ' ' :: text

theorem commaText_cons
    (text : List Char)
    (texts : List (List Char)) :
    Expr.commaText (text :: texts) = text ++ (texts.map behindComma).flatten := by
  induction texts generalizing text with
  | nil => simp [Expr.commaText]
  | cons next texts inductionHypothesis =>
      have split : Expr.commaText (text :: next :: texts) =
          text ++ ',' :: ' ' :: Expr.commaText (next :: texts) := by
        simp [Expr.commaText, List.intercalate_cons_cons]
      rw [split, inductionHypothesis]
      rfl

theorem matched?_sign_self
    (c : Char) :
    (sign c (c :: cs)).matched? = some ((), cs) := by
  rw [matched?_sign_cons, if_pos rfl]

/-- A sign that is not there is not matched. -/
theorem matched?_sign_of_stops
    {expected : Char}
    (stops : Text.Stops (· == expected) cs) :
    (sign expected cs).matched? = none := by
  cases cs with
  | nil => rfl
  | cons c others => simpa using stops

/-- Texts with commas between them are read one by one. -/
theorem matched?_separated
    (notEmpty : values ≠ [])
    (each : List.Forall₂ (fun value text => Opens text ∧ Reads part ends limit value text)
      values texts)
    (comma : ∀ more, ends (',' :: more))
    (endsRest : ends rest)
    (noComma : Text.Stops (· == ',') (skipLayout .between rest))
    (short : (Expr.commaText texts ++ rest).length < limit) :
    (separated part (Expr.commaText texts ++ rest)).matched? = some (values, rest) := by
  cases each with
  | nil => exact absurd rfl notEmpty
  | @cons value text values texts first others =>
      rw [commaText_cons, List.append_assoc] at short ⊢
      have endsHere : ends ((texts.map behindComma).flatten ++ rest) := by
        cases texts with
        | nil => exact endsRest
        | cons next texts => exact comma _
      have behind : List.Forall₂ (ReadsNext (do layout; sign ','; layout; part) ends limit)
          values (texts.map behindComma) := by
        rw [List.forall₂_map_right_iff]
        refine others.imp fun value text reads =>
          ⟨fun more endsMore shortMore => ?_, fun _ => comma _, by simp [behindComma]⟩
        have shortText : (text ++ more).length < limit := by
          simp only [behindComma, List.cons_append, List.length_cons] at shortMore
          omega
        rw [behindComma, List.cons_append, List.cons_append,
          matched?_bind_of_some matched?_layout,
          skipLayout_of_bare (Opens.visible rfl (by decide) (by decide)).bare,
          matched?_bind_of_some (matched?_sign_self ','), matched?_bind_of_some matched?_layout,
          skipLayout_blank (reads.1.append more)]
        exact reads.2 more endsMore shortText
      have stops : ((do layout; sign ','; layout; part : Matcher α) rest).matched? = none := by
        rw [matched?_bind_of_some matched?_layout]
        exact matched?_bind_of_none (matched?_sign_of_stops noComma)
      have shorter : ((texts.map behindComma).flatten ++ rest).length < limit := by
        simp only [List.length_append] at short ⊢
        omega
      have more := matched?_many_texts behind endsRest stops shorter
      rw [separated, matched?_bind_of_some (first.2 _ endsHere short),
        matched?_bind_of_some more, matched?_pure]

end Repetition

/-- Whether a matcher reads nested expressions in texts below a length. -/
def Nests
    (bound : Nat)
    (m : Matcher (Reading Expr)) :
    Prop :=
  ∀ cs : List Char, cs.length < bound →
    ∃ depth, cs.length ≤ depth ∧ m cs = exprWithin (depth + 1) cs

/-- The reader of nested expressions reads them in texts shorter than its depth. -/
theorem nests_exprWithin
    (depth : Nat) :
    Nests depth (exprWithin depth) := by
  intro cs short
  obtain ⟨inner, rfl⟩ : ∃ inner, depth = inner + 1 := ⟨depth - 1, by omega⟩
  exact ⟨inner, by omega, rfl⟩

theorem nests_expr
    (bound : Nat) :
    Nests bound expr :=
  fun cs _ => ⟨cs.length, le_rfl, rfl⟩

/-- Whether a level of the grammar reads an expression back from a text. -/
def ReadsAt
    (level : Matcher (Reading Expr) → Matcher (Reading Expr))
    (ends : List Char → Prop)
    (e : Expr)
    (text : List Char) :
    Prop :=
  ∀ ⦃bound : Nat⦄ ⦃m : Matcher (Reading Expr)⦄, Nests bound m →
    Reads (level m) ends (bound + 1) (.ok e) text

/-- A nested expression is read at the level of disjunctions. -/
theorem ReadsAt.nested
    {bound : Nat}
    {e : Expr}
    {text : List Char}
    (reads : ReadsAt disjunction EndsExpr e text)
    (nests : Nests bound m) :
    Reads m EndsExpr bound (.ok e) text := by
  intro rest ends short
  obtain ⟨depth, deep, same⟩ := nests (text ++ rest) short
  rw [same, exprWithin, matched?_rule]
  exact reads (nests_exprWithin depth) rest ends (by omega)

section Operands

variable {function name : String}

/-- There is no call where no name stands. -/
theorem matched?_call_of_noName
    (noName : scanName? cs = none) :
    (call m cs).matched? = none := by
  rw [call, matched?_rule, matched?_spaced_bind, Grammar.name, matched?_token, noName,
    Option.bind_none]

/-- A name is no call without a parenthesis behind it. -/
theorem matched?_call_of_noOpen
    (isName : scanName? cs = some (function, rest))
    (noOpen : Text.Stops (· == '(') (skipLayout .between rest)) :
    (call m cs).matched? = none := by
  rw [call, matched?_rule, matched?_spaced_bind, Grammar.name, matched?_token, isName,
    Option.bind_some, matched?_spaced_bind, matched?_sign_of_stops noOpen, Option.bind_none]

/-- There is no property of an item where no name stands. -/
theorem matched?_member_of_noName
    (noName : scanName? cs = none) :
    (Grammar.member cs).matched? = none := by
  rw [Grammar.member, matched?_rule, matched?_bind_of_none]
  rw [Grammar.name, matched?_token, noName]

/-- A name is no member without a point behind it. -/
theorem matched?_member_of_noPoint
    (isName : scanName? cs = some (name, rest))
    (noPoint : Text.Stops (· == '.') rest) :
    (Grammar.member cs).matched? = none := by
  have found : (Grammar.name cs).matched? = some (name, rest) := by
    rw [Grammar.name, matched?_token, isName]
  rw [Grammar.member, matched?_rule, matched?_bind_of_some found,
    matched?_bind_of_none (matched?_sign_of_stops noPoint)]

/-- There is no parameter where its sign does not stand. -/
theorem matched?_parameter_of_noSign
    (noSign : Text.Stops (· == '@') cs) :
    (Grammar.parameter cs).matched? = none := by
  rw [Grammar.parameter, matched?_rule, matched?_bind_of_none (matched?_sign_of_stops noSign)]

/-- There are no parentheses where none opens. -/
theorem matched?_parenthesised_of_noOpen
    (noOpen : Text.Stops (· == '(') cs) :
    (parenthesised m cs).matched? = none := by
  rw [parenthesised, matched?_spaced_bind, matched?_sign_of_stops noOpen, Option.bind_none]

/-- An operand is the first of its alternatives that matches. -/
theorem matched?_operand :
    (operand m cs).matched? =
      ((call m cs).matched?.or
        (((Grammar.member cs).matched?.map fun found => (.ok found.1, found.2)).or
          ((literal cs).matched?.or
            (((Grammar.parameter cs).matched?.map fun found => (.ok found.1, found.2)).or
              ((parenthesised m cs).matched?.or
                ((scanName? cs).map fun found => (.ok (.item found.1), found.2))))))) := by
  simp only [operand, matched?_rule, matched?_firstOf_cons, matched?_firstOf_nil,
    matched?_andThen, matched?_succeed, Grammar.name, matched?_token, Option.or_none,
    Option.map_eq_bind, Function.comp_def]

/-- What begins like an identifier is no literal unless it is a reserved word. -/
theorem matched?_literal_of_name
    (proper : IsName name)
    (stops : Text.Stops isNameChar rest) :
    (literal (name.toList ++ rest)).matched? = none := by
  obtain ⟨c, others, shape, start, -⟩ := isIdentifier_iff.mp proper.identifier
  have noDigit := isDigit_of_isNameStart start
  have noNull := proper.scanWord? stops (by decide : "null".toList ∈ reservedWords)
  rw [shape, List.cons_append] at noNull ⊢
  exact matched?_literal_of_none noNull
    (scanReal?_of_head noDigit (ne_of_kind start rfl))
    (scanInteger?_of_head noDigit (ne_of_kind start rfl))
    (scanText?_of_head (ne_of_kind start rfl) (ne_of_kind start rfl))

/-- An identifier begins with no sign. -/
theorem IsName.stops
    (proper : IsName name)
    {c : Char}
    (noStart : isNameStart c = false) :
    Text.Stops (· == c) (name.toList ++ rest) := by
  obtain ⟨first, others, shape, start, -⟩ := isIdentifier_iff.mp proper.identifier
  rw [shape]
  simpa using ne_of_kind start noStart

/-- The name of an item reads as this item. -/
theorem readsAt_item
    (proper : IsName name) :
    ReadsAt operand EndsOperand (.item name) name.toList := by
  intro bound m _ rest ends _
  have found := proper.scanName? ends.noName
  rw [matched?_operand, matched?_call_of_noOpen found ends.noCall,
    matched?_member_of_noPoint found ends.noPoint, matched?_literal_of_name proper ends.noName,
    matched?_parameter_of_noSign (proper.stops rfl),
    matched?_parenthesised_of_noOpen (proper.stops rfl), found]
  rfl

/-- A member is taken as a whole. -/
theorem matched?_member
    {item property : String}
    (itemProper : IsName item)
    (propertyProper : IsName property)
    (stops : Text.Stops isNameChar rest) :
    (Grammar.member (item.toList ++ '.' :: (property.toList ++ rest))).matched? =
      some (.member item property, rest) := by
  have itemFound : scanName? (item.toList ++ '.' :: (property.toList ++ rest)) =
      some (item, '.' :: (property.toList ++ rest)) :=
    itemProper.scanName? (by simp [isNameChar])
  simp only [Grammar.member, matched?_rule, matched?_bind, Grammar.name, matched?_token,
    itemFound, matched?_sign_self, propertyProper.scanName? stops, Option.bind_some,
    matched?_pure]

/-- A parameter is taken as a whole. -/
theorem matched?_parameter
    (proper : IsName name)
    (stops : Text.Stops isNameChar rest) :
    (Grammar.parameter ('@' :: (name.toList ++ rest))).matched? = some (.parameter name, rest) := by
  simp only [Grammar.parameter, matched?_rule, matched?_bind, Grammar.name, matched?_token,
    matched?_sign_self, proper.scanName? stops, Option.bind_some, matched?_pure]

/-- Two names with a point between them read as a property of an item. -/
theorem readsAt_member
    {item property : String}
    (itemProper : IsName item)
    (propertyProper : IsName property) :
    ReadsAt operand EndsOperand (.member item property)
      (item.toList ++ '.' :: property.toList) := by
  intro bound m _ rest ends _
  rw [List.append_assoc, List.cons_append]
  have itemFound : scanName? (item.toList ++ '.' :: (property.toList ++ rest)) =
      some (item, '.' :: (property.toList ++ rest)) :=
    itemProper.scanName? (by simp [isNameChar])
  have noOpen : Text.Stops (· == '(')
      (skipLayout .between ('.' :: (property.toList ++ rest))) := by
    rw [skipLayout_of_bare (Opens.visible rfl (by decide) (by decide)).bare]
    simp
  rw [matched?_operand, matched?_call_of_noOpen itemFound noOpen,
    matched?_member itemProper propertyProper ends.noName]
  rfl

/-- A literal is an operand that is no name. -/
theorem readsAt_literal
    {value : Value}
    {text : List Char}
    (noName : ∀ rest, EndsOperand rest → scanName? (text ++ rest) = none)
    (found : ∀ rest, EndsOperand rest →
      (literal (text ++ rest)).matched? = some (.ok (.literal value), rest)) :
    ReadsAt operand EndsOperand (.literal value) text := by
  intro bound m _ rest ends _
  rw [matched?_operand, matched?_call_of_noName (noName rest ends),
    matched?_member_of_noName (noName rest ends), found rest ends]
  rfl

/-- The word `null` reads as the null literal. -/
theorem readsAt_null :
    ReadsAt operand EndsOperand (.literal .null) "null".toList :=
  readsAt_literal
    (fun _ ends => scanName?_of_reserved (isNameChar_of_mem_reservedWords (by decide)) (by decide)
      ends.noName)
    fun _ => matched?_literal_null

/-- The digits of an integer read as this integer. -/
theorem readsAt_integer
    (n : Int64) :
    ReadsAt operand EndsOperand (.literal (.integer n)) (Decimal.ofInt n.toInt).toList := by
  refine readsAt_literal (fun rest _ => ?_) fun _ => matched?_literal_integer n
  have proper := isDigits_digits n.toInt.natAbs
  rw [toList_ofInt]
  cases decide (n.toInt < 0) with
  | true => exact scanName?_of_head rfl
  | false =>
      obtain ⟨first, others, shape⟩ := List.exists_cons_of_ne_nil proper.some
      rw [shape] at proper ⊢
      refine scanName?_of_head ?_
      by_contra start
      have noDigit := isDigit_of_isNameStart (by simpa using start)
      simp [proper.all first (by simp)] at noDigit

/-- A text in quotes of either kind, those inside doubled, reads as this text. -/
theorem readsAt_text
    {quote : Char}
    (s : String)
    (isQuote : quote = '"' ∨ quote = '\'') :
    ReadsAt operand EndsOperand (.literal (.text s))
      (quote :: (Expr.doubled quote s.toList ++ [quote])) := by
  refine readsAt_literal (fun rest _ => ?_) fun _ => matched?_literal_text s isQuote
  rcases isQuote with rfl | rfl <;> exact scanName?_of_head rfl

/-- A sign that is no quote begins no literal. -/
theorem matched?_literal_of_sign
    {c : Char}
    {others : List Char}
    (noNull : c.toLower ≠ 'n')
    (noDigit : Decimal.isDigit c = false)
    (noMinus : c ≠ '-')
    (noDouble : c ≠ '"')
    (noSingle : c ≠ '\'') :
    (literal (c :: others)).matched? = none :=
  matched?_literal_of_none (scanWord?_of_head noNull) (scanReal?_of_head noDigit noMinus)
    (scanInteger?_of_head noDigit noMinus) (scanText?_of_head noDouble noSingle)

/-- A name behind its sign reads as a parameter. -/
theorem readsAt_parameter
    (proper : IsName name) :
    ReadsAt operand EndsOperand (.parameter name) ('@' :: name.toList) := by
  intro bound m _ rest ends _
  have noName : scanName? ('@' :: (name.toList ++ rest)) = none := scanName?_of_head rfl
  rw [List.cons_append, matched?_operand, matched?_call_of_noName noName,
    matched?_member_of_noName noName,
    matched?_literal_of_sign (by decide) rfl (by decide) (by decide) (by decide),
    matched?_parameter proper ends.noName]
  rfl

theorem skipLayout_sign
    {c : Char}
    (noSpace : isSpace c = false)
    (noBlock : c ≠ '/')
    (noLine : c ≠ '-') :
    skipLayout .between (c :: cs) = c :: cs :=
  skipLayout_of_bare (Opens.visible noSpace noBlock noLine).bare

/-- An expression ends in front of a closing parenthesis and of a comma. -/
theorem endsExpr_sign
    {c : Char}
    (isSign : c = ')' ∨ c = ',') :
    EndsExpr (c :: rest) := by
  have skipped : skipLayout .between (c :: rest) = c :: rest := by
    rcases isSign with rfl | rfl <;> exact skipLayout_sign rfl (by decide) (by decide)
  refine ⟨⟨⟨⟨?_, ?_⟩, ?_⟩, ?_⟩, ?_⟩
  · rcases isSign with rfl | rfl <;> simp [continuesOperand, isNameChar]
  · rw [skipped]
    rcases isSign with rfl | rfl <;> simp
  · rw [skipped]
    rcases isSign with rfl | rfl <;> rfl
  · rw [skipped]
    rcases isSign with rfl | rfl <;> exact scanWord?_of_head (by decide)
  · rw [skipped]
    rcases isSign with rfl | rfl <;> exact scanWord?_of_head (by decide)

/-- Parentheses make an operand of any expression. -/
theorem readsAt_parenthesised
    {e : Expr}
    {text : List Char}
    (opens : Opens text)
    (reads : ReadsAt disjunction EndsExpr e text) :
    ReadsAt operand EndsOperand e ('(' :: (text ++ [')'])) := by
  intro bound m nests rest ends short
  rw [List.cons_append, List.append_assoc, List.singleton_append] at short ⊢
  have noName : scanName? ('(' :: (text ++ ')' :: rest)) = none := scanName?_of_head rfl
  have inner : (m (text ++ ')' :: rest)).matched? = some (.ok e, ')' :: rest) :=
    reads.nested nests _ (endsExpr_sign (.inl rfl)) (by simpa using short)
  have found : (parenthesised m ('(' :: (text ++ ')' :: rest))).matched? =
      some (.ok e, rest) := by
    rw [parenthesised, matched?_spaced_bind, matched?_sign_self, Option.bind_some,
      skipLayout_of_bare (opens.append _).bare, matched?_spaced_bind, inner, Option.bind_some,
      skipLayout_sign rfl (by decide) (by decide),
      matched?_bind_of_some (matched?_sign_self ')'), matched?_pure]
  rw [matched?_operand, matched?_call_of_noName noName, matched?_member_of_noName noName,
    matched?_literal_of_sign (by decide) rfl (by decide) (by decide) (by decide),
    matched?_parameter_of_noSign (by simp), found]
  rfl

/-- Nothing is read in front of a closing parenthesis. -/
theorem matched?_closeParen_of_nests
    {bound : Nat}
    (nests : Nests bound m)
    (short : (')' :: rest).length < bound) :
    (m (')' :: rest)).matched? = none := by
  obtain ⟨depth, -, same⟩ := nests _ short
  have noName : scanName? (')' :: rest) = none := scanName?_of_head rfl
  have noOperand : (operand (exprWithin depth) (')' :: rest)).matched? = none := by
    rw [matched?_operand, matched?_call_of_noName noName, matched?_member_of_noName noName,
      matched?_literal_of_sign (by decide) rfl (by decide) (by decide) (by decide),
      matched?_parameter_of_noSign (by simp), matched?_parenthesised_of_noOpen (by simp), noName]
    rfl
  have noNot : (keyword "not" (')' :: rest)).matched? = none := by
    rw [keyword, matched?_token]
    exact scanWord?_of_head (by decide)
  have noUnary : (unary (exprWithin depth) (')' :: rest)).matched? = none := by
    rw [unary, negation, matched?_rule, matched?_orElse, matched?_spaced_bind, noNot,
      Option.bind_none, Option.none_or, comparison, matched?_rule, matched?_bind_of_none noOperand]
  have noConjunction : (conjunction (exprWithin depth) (')' :: rest)).matched? = none := by
    rw [conjunction, keywordChain, matched?_rule, matched?_bind_of_none noUnary]
  rw [same, exprWithin, matched?_rule, disjunction, keywordChain, matched?_rule,
    matched?_bind_of_none noConjunction]

/-- Readings without a misfit are the values that were read. -/
theorem collect_ok
    (values : List α) :
    collect (values.map .ok) = .ok values := by
  induction values with
  | nil => rfl
  | cons value values inductionHypothesis =>
      rw [List.map_cons, collect, inductionHypothesis]
      rfl

/-- A call is read if its arguments are. -/
theorem readsAt_call
    {args : List Expr}
    {texts : List (List Char)}
    (proper : IsName function)
    (lower : function.toList.map Char.toLower = function.toList)
    (each : List.Forall₂ (fun arg text => Opens text ∧ ReadsAt disjunction EndsExpr arg text)
      args texts) :
    ReadsAt operand EndsOperand (.call function args)
      (function.toList ++ '(' :: (Expr.commaText texts ++ [')'])) := by
  intro bound m nests rest ends short
  rw [List.append_assoc, List.cons_append, List.append_assoc, List.singleton_append] at short ⊢
  have named : scanName? (function.toList ++ '(' :: (Expr.commaText texts ++ ')' :: rest)) =
      some (function, '(' :: (Expr.commaText texts ++ ')' :: rest)) :=
    proper.scanName? (by simp [isNameChar])
  have shorter : (Expr.commaText texts ++ ')' :: rest).length < bound := by
    simp only [List.length_append, List.length_cons] at short ⊢
    omega
  have argsFound : ∃ found, (optional (separated m)
      (skipLayout .between (Expr.commaText texts ++ ')' :: rest))).matched? =
        some (found, ')' :: rest) ∧ collect (found.getD []) = .ok args := by
    cases each with
    | nil =>
        have noArgs : (separated m (')' :: rest)).matched? = none := by
          rw [separated, matched?_bind_of_none (matched?_closeParen_of_nests nests shorter)]
        refine ⟨none, ?_, rfl⟩
        have skipped : skipLayout .between (Expr.commaText [] ++ ')' :: rest) = ')' :: rest :=
          skipLayout_sign rfl (by decide) (by decide)
        rw [skipped, matched?_optional, noArgs]
        rfl
    | @cons arg text args texts first others =>
        have opens : Opens (Expr.commaText (text :: texts)) := by
          rw [commaText_cons]
          exact first.1.append _
        have noComma : Text.Stops (· == ',') (skipLayout .between (')' :: rest)) := by
          rw [skipLayout_sign rfl (by decide) (by decide)]
          simp
        have readings : List.Forall₂ (fun reading text => Opens text ∧
            Reads m EndsExpr bound reading text) ((arg :: args).map .ok) (text :: texts) :=
          List.forall₂_map_left_iff.mpr (.cons ⟨first.1, first.2.nested nests⟩
            (others.imp fun arg text reads => ⟨reads.1, reads.2.nested nests⟩))
        have separate := matched?_separated (by simp) readings
          (fun _ => endsExpr_sign (.inr rfl)) (endsExpr_sign (.inl rfl)) noComma shorter
        refine ⟨some ((arg :: args).map .ok), ?_, collect_ok _⟩
        rw [skipLayout_of_bare (opens.append _).bare, matched?_optional, separate]
        rfl
  obtain ⟨found, argsMatched, collected⟩ := argsFound
  have matched : (call m (function.toList ++ '(' :: (Expr.commaText texts ++ ')' :: rest))).matched?
      = some (.ok (.call function args), rest) := by
    rw [call, matched?_rule, matched?_spaced_bind, Grammar.name, matched?_token, named,
      Option.bind_some, skipLayout_sign rfl (by decide) (by decide), matched?_spaced_bind,
      matched?_sign_self, Option.bind_some, matched?_spaced_bind, argsMatched, Option.bind_some,
      skipLayout_sign rfl (by decide) (by decide), matched?_bind_of_some (matched?_sign_self ')'),
      matched?_pure, collected, lower, String.ofList_toList]
    rfl
  rw [matched?_operand, matched, Option.some_or]

end Operands

end FullTextQuery.Query
