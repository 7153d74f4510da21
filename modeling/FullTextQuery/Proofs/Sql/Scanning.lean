import FullTextQuery.Proofs.Text.Run
import FullTextQuery.Sql.Token
import FullTextQuery.Sql.Writer
import Mathlib

namespace FullTextQuery.Sql

/-!
# Scanning text piece by piece

A text is scanned as the pieces that it is put together from.  Quotes are the
only pieces that can be refused: a NUL must not stand between them.
-/

/-- Whether a text begins like what follows an expression. -/
def Delimited
    (rest : List Char) :
    Prop :=
  ∀ c ∈ rest.head?, c = ' ' ∨ c = ')' ∨ c = ','

@[simp] theorem delimited_nil :
    Delimited [] := by
  simp [Delimited]

@[simp] theorem delimited_cons
    {c : Char}
    {rest : List Char} :
    Delimited (c :: rest) ↔ c = ' ' ∨ c = ')' ∨ c = ',' := by
  simp [Delimited]

/-- What follows an expression stops every run that takes no delimiter. -/
theorem Delimited.stops
    {kind : Char → Bool}
    {rest : List Char}
    (delimited : Delimited rest)
    (notBlank : kind ' ' = false)
    (notClose : kind ')' = false)
    (notComma : kind ',' = false) :
    Text.Stops kind rest := by
  intro c front
  rcases delimited c front with rfl | rfl | rfl
  · exact notBlank
  · exact notClose
  · exact notComma

/-- Whether a piece of text is scanned as some tokens, whatever is scanned behind it. -/
structure Scans
    (text : List Char)
    (tokens : List Token)
    (rest : List Char) :
    Prop where
  short : tokens.length ≤ text.length
  scan : ∀ count, scanTokens? (tokens.length + count) (text ++ rest) =
    (scanTokens? count rest).map (tokens ++ ·)

/-- Whether a piece of text is scanned as some tokens if a condition holds, and refused if not. -/
structure ScansIf
    (readable : Prop)
    (text : List Char)
    (tokens : List Token)
    (rest : List Char) :
    Prop where
  scans : readable → Scans text tokens rest
  refused : ¬ readable → ∀ count, text.length ≤ count → scanTokens? count (text ++ rest) = none

variable {text first second rest : List Char} {tokens firstTokens secondTokens : List Token}

/-- What is scanned is scanned on any condition that holds. -/
theorem Scans.scansIf
    (scans : Scans text tokens rest) :
    ScansIf True text tokens rest where
  scans := fun _ => scans
  refused := fun unreadable => absurd trivial unreadable

/-- Pieces behind one another are scanned one after another. -/
theorem Scans.append
    (firstScans : Scans first firstTokens (second ++ rest))
    (secondScans : Scans second secondTokens rest) :
    Scans (first ++ second) (firstTokens ++ secondTokens) rest where
  short := by
    have firstShort := firstScans.short
    have secondShort := secondScans.short
    simp only [List.length_append]
    omega
  scan := by
    intro count
    rw [List.length_append, Nat.add_assoc, List.append_assoc, firstScans.scan, secondScans.scan]
    cases scanTokens? count rest <;> simp

/-- Pieces behind one another are scanned if each of them is. -/
theorem ScansIf.append
    {firstReadable secondReadable : Prop}
    (firstScans : ScansIf firstReadable first firstTokens (second ++ rest))
    (secondScans : ScansIf secondReadable second secondTokens rest) :
    ScansIf (firstReadable ∧ secondReadable) (first ++ second) (firstTokens ++ secondTokens)
      rest where
  scans := fun readable => (firstScans.scans readable.1).append (secondScans.scans readable.2)
  refused := by
    intro unreadable count enough
    rw [List.length_append] at enough
    rw [List.append_assoc]
    by_cases firstHolds : firstReadable
    · have secondFails : ¬ secondReadable := fun secondHolds =>
        unreadable ⟨firstHolds, secondHolds⟩
      have scans := firstScans.scans firstHolds
      have short := scans.short
      obtain ⟨others, rfl⟩ : ∃ others, count = firstTokens.length + others :=
        ⟨count - firstTokens.length, by omega⟩
      rw [scans.scan, secondScans.refused secondFails others (by omega), Option.map_none]
    · exact firstScans.refused firstHolds count (by omega)

/-- The condition of a piece can be stated in another way. -/
theorem ScansIf.congr
    {readable other : Prop}
    (scans : ScansIf readable text tokens rest)
    (same : readable ↔ other) :
    ScansIf other text tokens rest :=
  propext same ▸ scans

/-- A whole text is made of its tokens if it can be read. -/
theorem ScansIf.tokens?_eq
    {readable : Prop}
    [Decidable readable]
    {text : String}
    (scans : ScansIf readable text.toList tokens []) :
    tokens? text = if readable then some tokens else none := by
  unfold tokens?
  split
  · rename_i holds
    have whole := scans.scans holds
    have short := whole.short
    obtain ⟨others, length⟩ : ∃ others, text.toList.length = tokens.length + others :=
      ⟨text.toList.length - tokens.length, by omega⟩
    have read := whole.scan others
    have atEnd : scanTokens? others [] = some [] := by
      cases others <;> rfl
    rw [List.append_nil, atEnd, Option.map_some, List.append_nil] at read
    rw [length, read]
  · rename_i fails
    have refused := scans.refused fails text.toList.length le_rfl
    rw [List.append_nil] at refused
    exact refused

/-- Nothing is scanned as nothing. -/
theorem Scans.nothing :
    Scans [] [] rest where
  short := le_rfl
  scan := by
    intro count
    cases scanned : scanTokens? count rest <;> simp [scanned]

/-- A blank is skipped. -/
theorem Scans.blank :
    Scans [' '] [] rest where
  short := Nat.zero_le _
  scan := by
    intro count
    have skipped : scanTokens? count (' ' :: rest) = scanTokens? count rest := by
      cases count <;> rfl
    simp [skipped]

/-- A text that begins with a token and with no blank is scanned as the token. -/
theorem scanTokens?_token
    {c : Char}
    {others : List Char}
    {token : Token}
    (visible : isBlank c = false)
    (notEnd : c ≠ '\x00')
    (found : scanToken? (c :: others) = some (token, rest))
    (count : Nat) :
    scanTokens? (count + 1) (c :: others) = (scanTokens? count rest).map (token :: ·) := by
  simp [scanTokens?, visible, notEnd, isEnd, found]

/-- A token that begins with a visible character is scanned by itself. -/
theorem Scans.token
    {c : Char}
    {others : List Char}
    {token : Token}
    (visible : isBlank c = false)
    (notEnd : c ≠ '\x00')
    (found : scanToken? (c :: (others ++ rest)) = some (token, rest)) :
    Scans (c :: others) [token] rest where
  short := by simp
  scan := by
    intro count
    rw [List.length_singleton, Nat.add_comm, List.cons_append,
      scanTokens?_token visible notEnd found]
    simp

/-- A text that begins with no token is refused. -/
theorem scanTokens?_eq_none
    {c : Char}
    {others : List Char}
    (visible : isBlank c = false)
    (notEnd : c ≠ '\x00')
    (notFound : scanToken? (c :: others) = none)
    (count : Nat) :
    scanTokens? count (c :: others) = none := by
  cases count <;> simp [scanTokens?, visible, notEnd, isEnd, notFound]

section Signs

theorem Scans.openParen :
    Scans ['('] [.sign .openParen] rest :=
  .token (by decide) (by decide) rfl

theorem Scans.closeParen
    (rest : List Char) :
    Scans [')'] [.sign .closeParen] rest :=
  .token (by decide) (by decide) rfl

theorem Scans.comma :
    Scans [','] [.sign .comma] rest :=
  .token (by decide) (by decide) rfl

end Signs

/-- Whether a text is a word: it begins like one and only goes on with letters, digits and such. -/
def isWholeWord
    (name : String) :
    Bool :=
  match name.toList with
  | [] => false
  | c :: others => isWordStart c && others.all isWordChar

/-- What begins a word begins nothing else. -/
theorem isWordStart_spec
    {c : Char}
    (start : isWordStart c = true) :
    c ≠ '"' ∧ c ≠ '\'' ∧ c ≠ ':' ∧ c ≠ '\x00' ∧ isBlank c = false := by
  refine ⟨?_, ?_, ?_, ?_, ?_⟩
  · rintro rfl
    exact absurd start (by decide)
  · rintro rfl
    exact absurd start (by decide)
  · rintro rfl
    exact absurd start (by decide)
  · rintro rfl
    exact absurd start (by decide)
  · by_contra blank
    simp only [isBlank, Bool.or_eq_true, beq_iff_eq, Bool.not_eq_false] at blank
    rcases blank with (((rfl | rfl) | rfl) | rfl) | rfl <;> exact absurd start (by decide)

/-- A word is scanned as a whole where no more of it follows. -/
theorem Scans.word
    {name : String}
    (identifier : isWholeWord name = true)
    (stops : Text.Stops isWordChar rest) :
    Scans name.toList [.word name] rest := by
  unfold isWholeWord at identifier
  cases shape : name.toList with
  | nil => simp [shape] at identifier
  | cons c others =>
      simp only [shape, Bool.and_eq_true, List.all_eq_true] at identifier
      obtain ⟨start, all⟩ := identifier
      obtain ⟨notName, notText, notParameter, notEnd, visible⟩ := isWordStart_spec start
      refine .token visible notEnd ?_
      rw [scanToken?, if_neg notName, if_neg notText, if_neg notParameter, if_pos start,
        Text.takeWhile_run all stops, Text.dropWhile_run all stops, ← shape, String.ofList_toList]

/-- A parameter is scanned as a whole where no more of its name follows. -/
theorem Scans.parameter
    {name : String}
    (someChar : name.toList ≠ [])
    (all : ∀ c ∈ name.toList, isWordChar c = true)
    (stops : Text.Stops isWordChar rest) :
    Scans (':' :: name.toList) [.parameter name] rest := by
  refine .token (by decide) (by decide) ?_
  have found : scanToken? (':' :: (name.toList ++ rest)) = scanParameter? (name.toList ++ rest) :=
    rfl
  rw [found, scanParameter?, Text.takeWhile_run all stops, Text.dropWhile_run all stops]
  cases shape : name.toList with
  | nil => exact absurd shape someChar
  | cons c others => simp [← shape]

/-- What begins a number begins nothing else. -/
theorem isDigit_spec
    {c : Char}
    (digit : Decimal.isDigit c = true) :
    c ≠ '"' ∧ c ≠ '\'' ∧ c ≠ ':' ∧ c ≠ '\x00' ∧ isBlank c = false ∧ isWordStart c = false := by
  simp only [Decimal.isDigit, Bool.and_eq_true, decide_eq_true_eq] at digit
  obtain ⟨low, high⟩ := digit
  have notChar : ∀ other : Char, other.toNat < '0'.toNat → c ≠ other := by
    rintro other small rfl
    omega
  refine ⟨notChar _ (by decide), notChar _ (by decide), ?_, notChar _ (by decide), ?_, ?_⟩
  · rintro rfl
    exact absurd high (by decide)
  · simp only [isBlank, Bool.or_eq_false_iff, beq_eq_false_iff_ne]
    exact ⟨⟨⟨⟨notChar _ (by decide), notChar _ (by decide)⟩, notChar _ (by decide)⟩,
      notChar _ (by decide)⟩, notChar _ (by decide)⟩
  · have notUnderscore : c ≠ '_' := by
      rintro rfl
      exact absurd high (by decide)
    have toNat : c.toNat = c.val.toNat := rfl
    have bounds : 48 ≤ c.val.toNat ∧ c.val.toNat ≤ 57 := ⟨low, high⟩
    simp only [isWordStart, Char.isAlpha, Char.isUpper, Char.isLower, UInt32.le_iff_toNat_le,
      ge_iff_le, Bool.or_eq_false_iff, Bool.and_eq_false_iff, decide_eq_false_iff_not,
      beq_eq_false_iff_ne, toNat]
    have upperLow : 'A'.val.toNat = 65 := rfl
    have lowerLow : 'a'.val.toNat = 97 := rfl
    exact ⟨⟨⟨by omega, by omega⟩, notUnderscore⟩, by omega⟩

/-- A number is scanned as a whole where no word touches it. -/
theorem Scans.number
    {c : Char}
    {others : List Char}
    {numeral : Decimal.Numeral}
    {pointed : Bool}
    (digit : Decimal.isDigit c = true)
    (read : Decimal.numeral? (c :: (others ++ rest)) = some (numeral, pointed, rest))
    (stops : Text.Stops isWordChar rest) :
    Scans (c :: others) [.number numeral pointed] rest := by
  obtain ⟨notName, notText, notParameter, notEnd, visible, notWord⟩ := isDigit_spec digit
  refine .token visible notEnd ?_
  rw [scanToken?, if_neg notName, if_neg notText, if_neg notParameter, notWord]
  simp [scanNumber?, read, Text.takeWhile_of_stops stops]

/-- Whether no NUL is in a text. -/
def nulFree
    (text : String) :
    Bool :=
  !text.toList.contains '\x00'

/-- Quoted characters are taken up to the quote that is not doubled. -/
theorem scanQuoted?_doubled
    {quote : Char}
    (cs : List Char)
    (ends : Text.Stops (· == quote) rest) :
    Query.scanQuoted? quote (Expr.doubled quote cs ++ quote :: rest) = some (cs, rest) := by
  induction cs with
  | nil =>
      rcases rest with _ | ⟨d, others⟩
      · simp [Expr.doubled, Query.scanQuoted?]
      · have notQuote : d ≠ quote := by simpa using ends
        simp [Expr.doubled, Query.scanQuoted?, notQuote]
  | cons c cs inductionHypothesis =>
      have split : Expr.doubled quote (c :: cs) =
          (if c = quote then [c, c] else [c]) ++ Expr.doubled quote cs := by
        simp [Expr.doubled]
      obtain ⟨d, others, shape⟩ : ∃ d others,
          Expr.doubled quote cs ++ quote :: rest = d :: others :=
        List.exists_cons_of_ne_nil (by simp)
      rw [split, List.append_assoc]
      by_cases isQuote : c = quote
      · subst isQuote
        simp [Query.scanQuoted?, inductionHypothesis]
      · simp only [isQuote, ↓reduceIte, List.singleton_append, shape, Query.scanQuoted?]
        rw [← shape, inductionHypothesis]
        simp

/-- What stands between quotes is read unless there is a NUL in it. -/
theorem scanQuoted?_eq
    {quote : Char}
    (text : String)
    (ends : Text.Stops (· == quote) rest) :
    scanQuoted? quote (Expr.doubled quote text.toList ++ quote :: rest) =
      if nulFree text then some (text, rest) else none := by
  unfold scanQuoted? nulFree
  rw [scanQuoted?_doubled _ ends]
  cases hasNul : text.toList.contains '\x00' <;> simp only [hasNul] <;> simp

/-- A quoted name is scanned unless there is a NUL in it. -/
theorem scansIf_quoteName
    (name : String)
    (ends : Text.Stops (· == '"') rest) :
    ScansIf (nulFree name = true) (quoteName name).toList [.name name] rest := by
  have found : scanToken? ('"' :: (Expr.doubled '"' name.toList ++ '"' :: rest)) =
      if nulFree name then some (.name name, rest) else none := by
    rw [scanToken?, if_pos rfl, scanQuoted?_eq name ends]
    cases nulFree name <;> rfl
  rw [quoteName, String.toList_ofList]
  constructor
  · intro readable
    rw [if_pos readable] at found
    exact .token (by decide) (by decide) (by simpa using found)
  · intro unreadable count _
    rw [if_neg unreadable] at found
    exact scanTokens?_eq_none (by decide) (by decide) (by simpa using found) count

/-- A quoted text is scanned unless there is a NUL in it. -/
theorem scansIf_quoteText
    (text : String)
    (ends : Text.Stops (· == '\'') rest) :
    ScansIf (nulFree text = true) (quoteText text).toList [.text text] rest := by
  have found : scanToken? ('\'' :: (Expr.doubled '\'' text.toList ++ '\'' :: rest)) =
      if nulFree text then some (.text text, rest) else none := by
    rw [scanToken?, if_neg (by decide), if_pos rfl, scanQuoted?_eq text ends]
    cases nulFree text <;> rfl
  rw [quoteText, String.toList_ofList]
  constructor
  · intro readable
    rw [if_pos readable] at found
    exact .token (by decide) (by decide) (by simpa using found)
  · intro unreadable count _
    rw [if_neg unreadable] at found
    exact scanTokens?_eq_none (by decide) (by decide) (by simpa using found) count

end FullTextQuery.Sql
