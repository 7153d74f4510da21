import FullTextQuery.Proofs.Binary64.Literal
import FullTextQuery.Proofs.Sql.Scanning
import FullTextQuery.Proofs.Sql.Writing
import FullTextQuery.Sql.Reader

namespace FullTextQuery

/-!
# The tokens of expressions

The tokens that the text of an expression is scanned as, by recursion on the
expression.  The text is refused exactly if a name or a text literal in it has
a NUL.
-/

namespace Sql

/-- The numeral in the literal of a finite number. -/
def literalNumeral
    (x : Binary64) :
    Decimal.Numeral :=
  match Decimal.numeral? x.literalMagnitude with
  | some (numeral, _, _) => numeral
  | none => ⟨[], 0⟩

/-- The literal of a magnitude is read as its numeral, to which no other number is nearer. -/
theorem literalNumeral_spec
    {x : Binary64}
    (finite : x.code < Binary64.infinityCode) :
    Binary64.ofNumeral x.negative (literalNumeral x) = x ∧
      ∀ rest, Decimal.EndsNumeral rest →
        Decimal.numeral? (x.literalMagnitude ++ rest) = some (literalNumeral x, true, rest) := by
  obtain ⟨numeral, denotes, read⟩ := Binary64.exists_numeral_of_literalMagnitude finite
  have whole := read [] Text.stops_nil
  rw [List.append_nil] at whole
  have isNumeral : literalNumeral x = numeral := by rw [literalNumeral, whole]
  rw [isNumeral]
  exact ⟨denotes, read⟩

/-- A minus sign in front of some tokens, where it is needed. -/
def signedTokens
    (negative : Bool)
    (tokens : List Token) :
    List Token :=
  if negative then .sign .minus :: tokens else tokens

/-- The tokens of a literal; infinity and what is not a number are words. -/
def literalTokens : Value → List Token
  | .null => [.word "NULL"]
  | .integer n =>
      signedTokens (decide (n.toInt < 0)) [.number ⟨Decimal.digits n.toInt.natAbs, 0⟩ false]
  | .real x =>
      if x.isNaN then [.word "NaN"]
      else if x.isInfinite then signedTokens x.negative [.word "inf"]
      else signedTokens x.negative [.number (literalNumeral x) true]
  | .text s => [.text s]

/-- The token of a comparison. -/
def comparisonToken : Comparison → Token
  | .eq => .sign .equal
  | .notEq => .sign .notEqual
  | .lt => .sign .less
  | .ltEq => .sign .lessEqual
  | .gt => .sign .greater
  | .gtEq => .sign .greaterEqual
  | .like => .word "LIKE"

/-- The tokens of the operator between two operands. -/
def operatorTokens
    (op : Comparison)
    (right : RelExpr) :
    List Token :=
  match op, right with
  | .eq, .literal .null => [.word "IS"]
  | .notEq, .literal .null => [.word "IS", .word "NOT"]
  | op, _ => [comparisonToken op]

/-- The tokens of a value set behind an operand. -/
def arrayTokens
    (valueSet : String) :
    List Token :=
  [.word "IN", .word "rarray", .sign .openParen, .parameter valueSet, .sign .closeParen]

/-- Whether a text can stand behind a colon as the name of a parameter. -/
def isParameterName
    (name : String) :
    Bool :=
  !name.toList.isEmpty && name.toList.all isWordChar

end Sql

namespace RelExpr

open Sql

mutual

/-- The tokens of an expression. -/
def tokens : RelExpr → List Token
  | .member .. => []
  | .column tableAlias name => [.name tableAlias, .sign .dot, .name name]
  | .literal value => literalTokens value
  | .parameter name => [.parameter name]
  | .compare left op right =>
      .sign .openParen :: (tokens left ++ operatorTokens op right ++ tokens right
        ++ [.sign .closeParen])
  | .and left right =>
      .sign .openParen :: (tokens left ++ .word "AND" :: tokens right ++ [.sign .closeParen])
  | .or left right =>
      .sign .openParen :: (tokens left ++ .word "OR" :: tokens right ++ [.sign .closeParen])
  | .not operand =>
      .sign .openParen :: .word "NOT" :: (tokens operand ++ [.sign .closeParen])
  | .function name args =>
      .word (upperName name) :: .sign .openParen :: (argumentTokens args ++ [.sign .closeParen])
  | .membership operand valueSet _ => tokens operand ++ arrayTokens valueSet

/-- The tokens of arguments, with commas between them. -/
def argumentTokens : List RelExpr → List Token
  | [] => []
  | e :: es => tokens e ++ furtherTokens es

/-- The tokens of the arguments behind the first, each with a comma before it. -/
def furtherTokens : List RelExpr → List Token
  | [] => []
  | e :: es => .sign .comma :: (tokens e ++ furtherTokens es)

end

/-- Whether the names in a part of an expression are words, so that they are written as they are.
A name of a function that the reader knows as a keyword, such as `case` or `exists`, is no such
word: what stands behind it is not read as the arguments of a call. -/
def plainPart : RelExpr → Bool
  | .member .. => false
  | .parameter name => isParameterName name
  | .membership _ valueSet _ => isParameterName valueSet
  | .function name _ => isWholeWord name && !Reader.keywords.contains (upperName name)
  | _ => true

/-- Whether an expression has no members, and only words as names of parameters and functions,
those of functions being no keywords. -/
def Plain
    (e : RelExpr) :
    Prop :=
  e.Every (·.plainPart = true)

/-- Whether no quoted name or text in a part of an expression has a NUL. -/
def nulFreePart : RelExpr → Bool
  | .column tableAlias name => nulFree tableAlias && nulFree name
  | .literal (.text s) => nulFree s
  | _ => true

/-- Whether no quoted name or text in an expression has a NUL. -/
def NulFree
    (e : RelExpr) :
    Prop :=
  e.Every (·.nulFreePart = true)

instance
    (e : RelExpr) :
    Decidable e.Plain :=
  inferInstanceAs (Decidable (e.Every (·.plainPart = true)))

instance
    (e : RelExpr) :
    Decidable e.NulFree :=
  inferInstanceAs (Decidable (e.Every (·.nulFreePart = true)))

/-- A plain expression has no members. -/
theorem Plain.resolved
    {e : RelExpr}
    (plain : e.Plain) :
    e.Resolved := by
  intro item property member
  have := plain _ member
  simp [plainPart] at this

end RelExpr

namespace Sql

variable {rest : List Char}

/-- Writing a word in upper case keeps it a word. -/
theorem isWordStart_toUpper
    {c : Char}
    (start : isWordStart c = true) :
    isWordStart c.toUpper = true := by
  by_cases lower : c.isLower = true
  · have isLetter : c.isAlpha = true := by simp [Char.isAlpha, lower]
    simp [isWordStart, isLetter]
  · rw [Char.toUpper_eq_of_not_isLower lower]
    exact start

/-- A character of a word is one in upper case as well. -/
theorem isWordChar_toUpper
    {c : Char}
    (continues : isWordChar c = true) :
    isWordChar c.toUpper = true := by
  by_cases lower : c.isLower = true
  · have isLetter : c.isAlpha = true := by simp [Char.isAlpha, lower]
    simp [isWordChar, isWordStart, isLetter]
  · rw [Char.toUpper_eq_of_not_isLower lower]
    exact continues

/-- Upper case stays upper case. -/
@[simp] theorem upperName_upperName
    (name : String) :
    upperName (upperName name) = upperName name := by
  simp [upperName, Function.comp_def]

/-- A word is one in upper case as well. -/
theorem isWholeWord_upperName
    {name : String}
    (identifier : isWholeWord name = true) :
    isWholeWord (upperName name) = true := by
  unfold isWholeWord at *
  rw [upperName, String.toList_ofList]
  cases shape : name.toList with
  | nil => simp [shape] at identifier
  | cons c others =>
      simp only [shape, Bool.and_eq_true, List.all_eq_true] at identifier
      simp only [List.map_cons, Bool.and_eq_true, List.all_eq_true, List.forall_mem_map]
      exact ⟨isWordStart_toUpper identifier.1,
        fun d member => isWordChar_toUpper (identifier.2 d member)⟩

/-- The digits of a number are scanned as the number. -/
theorem Scans.digits
    (n : Nat)
    (delimited : Delimited rest) :
    Scans (Decimal.digits n) [.number ⟨Decimal.digits n, 0⟩ false] rest := by
  have stops : Decimal.EndsNumeral rest :=
    delimited.stops (by decide) (by decide) (by decide)
  have someDigit : Decimal.digits n ≠ [] := Nat.toDigits_ne_nil
  have read := Decimal.numeral?_whole someDigit (fun c => Decimal.isDigit_of_mem_digits)
    (delimited.stops (by decide) (by decide) (by decide))
  rw [Decimal.withExponent_of_ends stops] at read
  obtain ⟨c, others, shape⟩ := List.exists_cons_of_ne_nil someDigit
  have digit : Decimal.isDigit c = true :=
    Decimal.isDigit_of_mem_digits (n := n) (by simp [shape])
  rw [shape] at read ⊢
  exact .number digit read (delimited.stops (by decide) (by decide) (by decide))

/-- The literal of a magnitude is scanned as the numeral in it. -/
theorem Scans.literalMagnitude
    {x : Binary64}
    (finite : x.code < Binary64.infinityCode)
    (delimited : Delimited rest) :
    Scans x.literalMagnitude [.number (literalNumeral x) true] rest := by
  obtain ⟨c, others, shape, digit⟩ := Binary64.exists_literalMagnitude_eq_cons finite
  have here := (literalNumeral_spec finite).2 rest
    (delimited.stops (by decide) (by decide) (by decide))
  rw [shape] at here ⊢
  exact .number digit here (delimited.stops (by decide) (by decide) (by decide))

/-- A minus sign is scanned by itself, also in front of a number. -/
theorem Scans.signed
    {text : List Char}
    {tokens : List Token}
    (negative : Bool)
    (scans : Scans text tokens rest) :
    Scans (if negative then '-' :: text else text) (signedTokens negative tokens) rest := by
  cases negative with
  | false => exact scans
  | true =>
      have minus : ∀ others, Scans ['-'] [.sign .minus] others := fun others =>
        .token (by decide) (by decide) rfl
      exact (minus (text ++ rest)).append scans

/-- A literal is scanned as its tokens unless it is a text with a NUL. -/
theorem scansIf_literal
    (value : Value)
    (delimited : Delimited rest) :
    ScansIf ((RelExpr.literal value).nulFreePart = true) (writeLiteral value).toList
      (literalTokens value) rest := by
  have stopsWord : Text.Stops isWordChar rest :=
    delimited.stops (by decide) (by decide) (by decide)
  cases value with
  | null =>
      have isWord : isWholeWord "NULL" = true := by decide
      exact (Scans.word isWord stopsWord).scansIf.congr (by simp [RelExpr.nulFreePart])
  | integer n =>
      have scans := (Scans.digits n.toInt.natAbs delimited).signed (decide (n.toInt < 0))
      simp only [decide_eq_true_eq] at scans
      rw [writeLiteral, Decimal.ofInt, String.toList_ofList]
      exact scans.scansIf.congr (by simp [RelExpr.nulFreePart])
  | real x =>
      have scans : Scans x.toLiteral.toList (literalTokens (.real x)) rest := by
        have isWord : isWholeWord "NaN" = true ∧ isWholeWord "inf" = true := by decide
        by_cases isNaN : x.isNaN = true
        · simpa [Binary64.toLiteral, Binary64.signed, literalTokens, isNaN] using
            Scans.word isWord.1 stopsWord
        · by_cases isInfinite : x.isInfinite = true
          · simpa [Binary64.toLiteral, Binary64.signed, literalTokens, isNaN, isInfinite] using
              (Scans.word isWord.2 stopsWord).signed x.negative
          · have finite : x.code < Binary64.infinityCode :=
              Binary64.code_lt_infinityCode_iff.mpr
                ⟨by simpa using isNaN, by simpa using isInfinite⟩
            rw [Binary64.toList_toLiteral finite]
            simpa [literalTokens, isNaN, isInfinite] using
              (Scans.literalMagnitude finite delimited).signed x.negative
      exact scans.scansIf.congr (by simp [RelExpr.nulFreePart])
  | text s => exact scansIf_quoteText s (delimited.stops (by decide) (by decide) (by decide))

/-- A comparison with something else than a null literal is written with its symbol. -/
theorem writeOperator_of_ne_null
    {right : RelExpr}
    (notNull : right ≠ .literal .null)
    (op : Comparison) :
    writeOperator op right = op.symbol ∧ operatorTokens op right = [comparisonToken op] := by
  unfold writeOperator operatorTokens
  constructor
  · split <;> simp_all
  · split <;> simp_all

/-- The symbol of a comparison is scanned as its token. -/
theorem Scans.symbol
    (op : Comparison) :
    Scans op.symbol.toList [comparisonToken op] (' ' :: rest) := by
  cases op with
  | eq => exact .token (by decide) (by decide) rfl
  | notEq => exact .token (by decide) (by decide) rfl
  | lt => exact .token (by decide) (by decide) rfl
  | ltEq => exact .token (by decide) (by decide) rfl
  | gt => exact .token (by decide) (by decide) rfl
  | gtEq => exact .token (by decide) (by decide) rfl
  | like =>
      have isWord : isWholeWord "LIKE" = true := by decide
      exact .word isWord (Text.stops_cons.mpr (by decide))

/-- A word is scanned as a whole where a blank follows. -/
theorem Scans.wordBlank
    {name : String}
    (identifier : isWholeWord name = true)
    (rest : List Char) :
    Scans name.toList [.word name] (' ' :: rest) :=
  .word identifier (Text.stops_cons.mpr (by decide))

/-- The operator between two operands is scanned as its tokens. -/
theorem Scans.operator
    (op : Comparison)
    (right : RelExpr) :
    Scans (writeOperator op right).toList (operatorTokens op right) (' ' :: rest) := by
  by_cases isNull : right = .literal .null
  · subst isNull
    have isWord : isWholeWord "IS" = true ∧ isWholeWord "NOT" = true := by decide
    cases op with
    | eq => exact .wordBlank isWord.1 rest
    | notEq =>
        have whole := (Scans.wordBlank isWord.1 ("NOT".toList ++ ' ' :: rest)).append
          (Scans.blank.append (Scans.wordBlank isWord.2 rest))
        simpa [writeOperator, operatorTokens] using whole
    | lt => exact Scans.symbol .lt
    | ltEq => exact Scans.symbol .ltEq
    | gt => exact Scans.symbol .gt
    | gtEq => exact Scans.symbol .gtEq
    | like => exact Scans.symbol .like
  · obtain ⟨written, tokens⟩ := writeOperator_of_ne_null isNull op
    rw [written, tokens]
    exact Scans.symbol op

/-- A parameter in parentheses or at the end is scanned as its name. -/
theorem Scans.parameterName
    {name : String}
    (isName : isParameterName name = true)
    (delimited : Delimited rest) :
    Scans (':' :: name.toList) [.parameter name] rest := by
  simp only [isParameterName, Bool.and_eq_true, Bool.not_eq_true', List.isEmpty_eq_false_iff,
    List.all_eq_true] at isName
  exact .parameter isName.1 isName.2 (delimited.stops (by decide) (by decide) (by decide))

/-- A value set behind an operand is scanned as its tokens. -/
theorem Scans.array
    {valueSet : String}
    (isName : isParameterName valueSet = true)
    (rest : List Char) :
    Scans ((" IN rarray(").toList ++ (':' :: valueSet.toList) ++ [')']) (arrayTokens valueSet)
      rest := by
  have isWord : isWholeWord "IN" = true ∧ isWholeWord "rarray" = true := by decide
  have arrayWord : Scans "rarray".toList [.word "rarray"]
      (['('] ++ (':' :: valueSet.toList ++ [')']) ++ rest) :=
    .word isWord.2 (Text.stops_cons.mpr (by decide))
  have name : Scans (':' :: valueSet.toList) [.parameter valueSet] (')' :: rest) :=
    .parameterName isName (by simp)
  have whole := Scans.blank.append ((Scans.wordBlank isWord.1 _).append (Scans.blank.append
    (arrayWord.append (Scans.openParen.append (name.append (Scans.closeParen rest))))))
  simpa [arrayTokens] using whole

end Sql

namespace RelExpr

open Sql

/-- Arguments behind the first are scanned as their tokens if each of them is. -/
theorem scansIf_furtherTokens
    {args : List RelExpr}
    {rest : List Char}
    (each : ∀ arg ∈ args, ∀ behind, Delimited behind →
      ScansIf arg.NulFree arg.text.toList arg.tokens behind)
    (delimited : Delimited rest) :
    ScansIf (∀ arg ∈ args, arg.NulFree) (args.flatMap fun arg => ',' :: ' ' :: arg.text.toList)
      (furtherTokens args) rest := by
  induction args generalizing rest with
  | nil => exact Scans.nothing.scansIf.congr (by simp)
  | cons arg args inductionHypothesis =>
      obtain ⟨argScans, eachScans⟩ := List.forall_mem_cons.mp each
      have behind :
          Delimited ((args.flatMap fun arg => ',' :: ' ' :: arg.text.toList) ++ rest) := by
        cases args with
        | nil => exact delimited
        | cons => simp
      have whole := Scans.comma.scansIf.append (Scans.blank.scansIf.append
        ((argScans _ behind).append (inductionHypothesis eachScans delimited)))
      simpa [furtherTokens] using whole

/-- The characters of texts with commas between them. -/
theorem toList_intercalate_texts
    (e : RelExpr)
    (es : List RelExpr) :
    (String.intercalate ", " (texts (e :: es))).toList =
      e.text.toList ++ es.flatMap fun arg => ',' :: ' ' :: arg.text.toList := by
  induction es generalizing e with
  | nil => simp [texts, String.intercalate_singleton]
  | cons next es inductionHypothesis =>
      rw [texts, texts, String.intercalate_cons_cons, ← texts, String.toList_append,
        String.toList_append, inductionHypothesis]
      simp

/-- The text of a plain expression is scanned as its tokens, unless a quoted part has a NUL. -/
theorem scansIf_text
    {e : RelExpr}
    (plain : e.Plain)
    {rest : List Char}
    (delimited : Delimited rest) :
    ScansIf e.NulFree e.text.toList e.tokens rest := by
  induction e generalizing rest with
  | member item property => simp [Plain, plainPart] at plain
  | column tableAlias name =>
      have dot : ∀ others, Scans ['.'] [.sign .dot] ('"' :: others) := fun others =>
        .token (by decide) (by decide) rfl
      have nameStops : Text.Stops (· == '"') rest :=
        delimited.stops (by decide) (by decide) (by decide)
      have nameScans := scansIf_quoteName name nameStops
      have quoted : (quoteName name).toList = '"' :: (Expr.doubled '"' name.toList ++ ['"']) := by
        simp [quoteName]
      have dotScans := (dot (Expr.doubled '"' name.toList ++ '"' :: rest)).scansIf
      have aliasStops : Text.Stops (· == '"') ('.' :: ((quoteName name).toList ++ rest)) := by simp
      have aliasScans := scansIf_quoteName tableAlias aliasStops
      have tail := ScansIf.append (by simpa [quoted] using dotScans) nameScans
      have whole := aliasScans.append tail
      simpa [text, tokens, NulFree, nulFreePart] using whole
  | literal value =>
      exact (scansIf_literal value delimited).congr (by simp [NulFree])
  | parameter name =>
      simp only [Plain, every_parameter] at plain
      have whole := (Scans.parameterName plain delimited).scansIf
      simpa [text, tokens, NulFree, nulFreePart] using whole
  | compare left op right leftScans rightScans =>
      simp only [Plain, every_compare] at plain
      have whole := Scans.openParen.scansIf.append
        ((leftScans plain.2.1 (by simp)).append
          (Scans.blank.scansIf.append
            ((Scans.operator op right).scansIf.append
              (Scans.blank.scansIf.append
                ((rightScans plain.2.2 (by simp)).append
                  (Scans.closeParen rest).scansIf)))))
      simpa [text, tokens, NulFree, nulFreePart] using whole
  | and left right leftScans rightScans =>
      simp only [Plain, every_and] at plain
      have isWord : isWholeWord "AND" = true := by decide
      have whole := Scans.openParen.scansIf.append
        ((leftScans plain.2.1 (by simp)).append
          (Scans.blank.scansIf.append
            ((Scans.wordBlank isWord _).scansIf.append
              (Scans.blank.scansIf.append
                ((rightScans plain.2.2 (by simp)).append
                  (Scans.closeParen rest).scansIf)))))
      simpa [text, tokens, NulFree, nulFreePart] using whole
  | or left right leftScans rightScans =>
      simp only [Plain, every_or] at plain
      have isWord : isWholeWord "OR" = true := by decide
      have whole := Scans.openParen.scansIf.append
        ((leftScans plain.2.1 (by simp)).append
          (Scans.blank.scansIf.append
            ((Scans.wordBlank isWord _).scansIf.append
              (Scans.blank.scansIf.append
                ((rightScans plain.2.2 (by simp)).append
                  (Scans.closeParen rest).scansIf)))))
      simpa [text, tokens, NulFree, nulFreePart] using whole
  | not operand operandScans =>
      simp only [Plain, every_not] at plain
      have isWord : isWholeWord "NOT" = true := by decide
      have whole := Scans.openParen.scansIf.append
        ((Scans.wordBlank isWord _).scansIf.append
          (Scans.blank.scansIf.append
            ((operandScans plain.2 (by simp)).append
              (Scans.closeParen rest).scansIf)))
      simpa [text, tokens, NulFree, nulFreePart] using whole
  | function name args argScans =>
      simp only [Plain, every_function, plainPart, Bool.and_eq_true] at plain
      have nameScans : ∀ others,
          Scans (upperName name).toList [.word (upperName name)] ('(' :: others) := fun others =>
        .word (isWholeWord_upperName plain.1.1) (Text.stops_cons.mpr (by decide))
      have argsScan : ScansIf (∀ arg ∈ args, arg.NulFree)
          (String.intercalate ", " (texts args)).toList (argumentTokens args) (')' :: rest) := by
        cases args with
        | nil => exact Scans.nothing.scansIf.congr (by simp)
        | cons arg args =>
            rw [toList_intercalate_texts, argumentTokens]
            have each : ∀ e ∈ arg :: args, ∀ behind, Delimited behind →
                ScansIf e.NulFree e.text.toList e.tokens behind :=
              fun e member behind delimited => argScans e member (plain.2 e member) delimited
            obtain ⟨argScan, eachScan⟩ := List.forall_mem_cons.mp each
            have behind : Delimited
                ((args.flatMap fun arg => ',' :: ' ' :: arg.text.toList) ++ ')' :: rest) := by
              cases args <;> simp
            exact ((argScan _ behind).append (scansIf_furtherTokens eachScan (by simp))).congr
              (by simp)
      have whole := (nameScans _).scansIf.append (Scans.openParen.scansIf.append
        (argsScan.append (Scans.closeParen rest).scansIf))
      simpa [text, tokens, NulFree, nulFreePart] using whole
  | membership operand valueSet search operandScans =>
      simp only [Plain, every_membership] at plain
      have whole := (operandScans plain.2 (by simp)).append
        (Scans.array plain.1 rest).scansIf
      simpa [text, tokens, NulFree, nulFreePart] using whole

/-- The whole text of a plain expression is made of its tokens unless a quoted part has a NUL. -/
theorem tokens?_text
    {e : RelExpr}
    (plain : e.Plain) :
    tokens? e.text = if e.NulFree then some e.tokens else none :=
  (scansIf_text plain delimited_nil).tokens?_eq

end RelExpr

end FullTextQuery
