import FullTextQuery.Proofs.NameMap
import FullTextQuery.Proofs.Planner.Statement
import FullTextQuery.Proofs.Sql.StatementReading
import FullTextQuery.Store.Selection

namespace FullTextQuery

/-!
# Statements with plain names

The names of known functions are words in any case, and what is scanned as a
parameter has a name made of word characters.  A statement all of whose
parameters are found again among the tokens of its text is therefore plain.
-/

namespace Sql

/-- The case of a letter does not matter at the beginning of a word. -/
theorem isWordStart_toLower
    (c : Char) :
    isWordStart c.toLower = isWordStart c := by
  by_cases upper : c.isUpper = true
  · have isLetter : c.isAlpha = true := by simp [Char.isAlpha, upper]
    have staysLetter : c.toLower.isAlpha = true := by simpa using isLetter
    simp [isWordStart, isLetter, staysLetter]
  · rw [Char.toLower_eq_of_not_isUpper upper]

/-- The case of a letter does not matter in a word. -/
theorem isWordChar_toLower
    (c : Char) :
    isWordChar c.toLower = isWordChar c := by
  by_cases upper : c.isUpper = true
  · have isLetter : c.isAlpha = true := by simp [Char.isAlpha, upper]
    have staysLetter : c.toLower.isAlpha = true := by simpa using isLetter
    simp [isWordChar, isWordStart, isLetter, staysLetter]
  · rw [Char.toLower_eq_of_not_isUpper upper]

/-- Whether a name is a word does not depend on its case. -/
theorem isWholeWord_lowerName
    (name : String) :
    isWholeWord (lowerName name) = isWholeWord name := by
  simp only [isWholeWord, lowerName, String.toList_ofList]
  cases name.toList with
  | nil => rfl
  | cons c others =>
      simp [isWordStart_toLower, List.all_map, Function.comp_def, isWordChar_toLower]

/-- A name in lower case has the same upper case. -/
theorem upperName_lowerName
    (name : String) :
    upperName (lowerName name) = upperName name := by
  simp [upperName, lowerName, Function.comp_def]

/-- The name of a known function is a word and no keyword. -/
theorem isPlainName_of_isKnownFunction
    {name : String}
    {arity : Nat}
    (known : isKnownFunction name arity = true) :
    (isWholeWord name && !Reader.keywords.contains (upperName name)) = true := by
  have each : ∀ entry ∈ knownFunctions,
      (isWholeWord entry.1 && !Reader.keywords.contains (upperName entry.1)) = true := by
    decide
  rw [← isWholeWord_lowerName, ← upperName_lowerName]
  exact each (lowerName name, arity) (by simpa [isKnownFunction] using known)

/-- What is scanned behind a colon is a name. -/
theorem isParameterName_of_scanParameter?
    {cs rest : List Char}
    {name : String}
    (found : scanParameter? cs = some (.parameter name, rest)) :
    isParameterName name = true := by
  unfold scanParameter? at found
  split at found
  · cases found
  · rename_i taken someChar
    obtain ⟨⟨⟩, rfl⟩ := Prod.mk.inj (Option.some.inj found)
    rw [isParameterName, String.toList_ofList, Bool.and_eq_true, Bool.not_eq_true',
      List.isEmpty_eq_false_iff, List.all_eq_true]
    exact ⟨someChar, fun c member => List.mem_takeWhile_imp member⟩

/-- A token that is a parameter has a name. -/
theorem isParameterName_of_scanToken?
    {cs rest : List Char}
    {name : String}
    (found : scanToken? cs = some (.parameter name, rest)) :
    isParameterName name = true := by
  have noSign : ∀ cs, scanSign? cs ≠ some (.parameter name, rest) := by
    intro cs
    unfold scanSign?
    split <;> simp
  have noNumber : ∀ cs, scanNumber? cs ≠ some (.parameter name, rest) := by
    intro cs
    unfold scanNumber?
    split
    · split <;> simp
    · simp
  cases cs with
  | nil => cases found
  | cons c others =>
      rw [scanToken?] at found
      split at found
      · simp at found
      · split at found
        · simp at found
        · split at found
          · exact isParameterName_of_scanParameter? found
          · split at found
            · simp at found
            · split at found
              · rename_i isNumber
                cases found
                exact absurd isNumber (noNumber _)
              · split at found
                · cases found
                · exact absurd found (noSign _)

/-- All parameters among the tokens of a text have names. -/
theorem isParameterName_of_tokens?
    {text : String}
    {tokens : List Token}
    (scanned : tokens? text = some tokens) :
    ∀ name ∈ parameterNames tokens, isParameterName name = true := by
  have each : ∀ count cs tokens, scanTokens? count cs = some tokens →
      ∀ name, .parameter name ∈ tokens → isParameterName name = true := by
    intro count
    induction count with
    | zero =>
        intro cs tokens scanned
        obtain ⟨_, rfl⟩ : _ ∧ [] = tokens := by simpa [scanTokens?] using scanned
        simp
    | succ count inductionHypothesis =>
        intro cs tokens scanned
        simp only [scanTokens?] at scanned
        split at scanned
        · obtain rfl : [] = tokens := Option.some.inj scanned
          simp
        · split at scanned
          · rename_i token rest found
            obtain ⟨others, scannedOthers, rfl⟩ := Option.map_eq_some_iff.mp scanned
            intro name member
            rcases List.mem_cons.mp member with rfl | member
            · exact isParameterName_of_scanToken? found
            · exact inductionHypothesis _ _ scannedOthers name member
          · cases scanned
  intro name member
  obtain ⟨token, isToken, isName⟩ := List.mem_filterMap.mp member
  cases token with
  | parameter other =>
      obtain rfl : other = name := Option.some.inj isName
      exact each _ _ _ scanned other isToken
  | _ => cases isName

end Sql

/-- A text can be searched with only if everything is bound under the name of a parameter. -/
theorem Store.isParameterName_of_search
    [NumeralReading]
    {store : Store}
    {text : String}
    {bindings : Store.Bindings}
    {search : Store.Search}
    (searched : store.search text bindings = .ok search) :
    ∀ name, bindings.contains name = true → Sql.isParameterName name = true := by
  intro name isBound
  unfold Store.search at searched
  split at searched
  · cases searched
  · rename_i prepared isPrepared
    obtain ⟨_, _, searched⟩ := Except.bind_eq_ok.mp searched
    split at searched
    · cases searched
    · rename_i noneUnknown
      obtain ⟨tokens, scanned, isPrepared⟩ := Option.bind_eq_some_iff.mp isPrepared
      obtain ⟨selection, _, isPrepared⟩ := Option.bind_eq_some_iff.mp isPrepared
      obtain rfl : (⟨selection, Sql.parameterNames tokens⟩ : Sql.Prepared) = prepared :=
        Option.some.inj isPrepared
      refine Sql.isParameterName_of_tokens? scanned name ?_
      have isName := NameMap.contains_iff_mem_names.mp isBound
      simpa using List.find?_eq_none.mp noneUnknown name isName

namespace Expr

open Sql

variable {model : Model} {query : Query} {image : RelExpr}

/-- The image of an expression is plain if the parameters in it have names. -/
theorem plain_of_image?
    {e : Expr}
    (imaged : e.image? model query = some image)
    (named : ∀ use ∈ image.uses, isParameterName use.name = true) :
    image.Plain := by
  refine image?_induction (motive := fun _ image =>
      (∀ use ∈ image.uses, isParameterName use.name = true) → image.Plain)
    ?member ?literal ?parameter ?compare ?and ?or ?not ?search ?call imaged named
  case member =>
    intros
    simp [RelExpr.Plain, RelExpr.plainPart]
  case literal =>
    intros
    simp [RelExpr.Plain, RelExpr.plainPart]
  case parameter =>
    intro name named
    simpa [RelExpr.Plain, RelExpr.plainPart, RelExpr.uses] using named
  case compare =>
    intro left op right l r leftPlain rightPlain named
    simp only [RelExpr.uses, List.forall_mem_append] at named
    exact RelExpr.every_compare.mpr ⟨rfl, leftPlain named.1, rightPlain named.2⟩
  case and =>
    intro left right l r leftPlain rightPlain named
    simp only [RelExpr.uses, List.forall_mem_append] at named
    exact RelExpr.every_and.mpr ⟨rfl, leftPlain named.1, rightPlain named.2⟩
  case or =>
    intro left right l r leftPlain rightPlain named
    simp only [RelExpr.uses, List.forall_mem_append] at named
    exact RelExpr.every_or.mpr ⟨rfl, leftPlain named.1, rightPlain named.2⟩
  case not =>
    intro operand o operandPlain named
    exact RelExpr.every_not.mpr ⟨rfl, operandPlain named⟩
  case search =>
    intro e searched test _ isTest named
    obtain ⟨column, rfl⟩ := exists_of_keyTest? isTest
    simpa [RelExpr.Plain, RelExpr.plainPart, RelExpr.uses] using named
  case call =>
    intro function args images _ known argsPlain named
    simp only [RelExpr.uses, RelExpr.usesOfAll_eq_flatMap, List.forall_mem_flatMap] at named
    refine RelExpr.every_function.mpr
      ⟨isPlainName_of_isKnownFunction known, fun result isResult => ?_⟩
    obtain ⟨arg, _, plain⟩ := List.exists_of_forall₂_right argsPlain isResult
    exact plain (named result isResult)

end Expr

/-- The statement of a draft is plain if the parameters in it have names. -/
theorem Planner.Drafted.plain
    {model : Model}
    {query : Query}
    {draft : Draft}
    (drafted : Drafted model query draft)
    (named : ∀ parameter ∈ draft.statement.uses, Sql.isParameterName parameter.name = true) :
    draft.statement.Plain := by
  intro image isPart
  obtain ⟨e, imaged⟩ := drafted.exists_preimage image isPart
  refine Expr.plain_of_image? imaged fun use isUse => named use ?_
  exact List.mem_flatMap.mpr ⟨image, isPart, isUse⟩

end FullTextQuery
