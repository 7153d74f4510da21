import FullTextQuery.Query.Parser

namespace FullTextQuery.Query.Matcher

/-!
# What a matcher matches

The match of a composed matcher in terms of the matches of its parts.  How far a
matcher got where it failed plays no part in these equations.
-/

variable {α β : Type} {m : Matcher α} {cs rest : List Char}

@[simp] theorem matched?_pure
    (value : α) :
    ((pure value : Matcher α) cs).matched? = some (value, cs) :=
  rfl

@[simp] theorem matched?_succeed
    (value : α) :
    (succeed value cs).matched? = some (value, cs) :=
  rfl

@[simp] theorem matched?_fail :
    ((fail : Matcher α) cs).matched? = none :=
  rfl

theorem matched?_andThen
    (first : Matcher α)
    (second : α → Matcher β) :
    (first.andThen second cs).matched? =
      (first cs).matched?.bind fun found => (second found.1 found.2).matched? := by
  unfold andThen
  cases found : (first cs).matched? <;> simp [found]

/-- Two matchers in a row answer what the second finds behind the first. -/
theorem matched?_bind
    (first : Matcher α)
    (second : α → Matcher β) :
    ((first >>= second) cs).matched? =
      (first cs).matched?.bind fun found => (second found.1 found.2).matched? :=
  matched?_andThen first second

/-- A sequence goes on with what its first part leaves. -/
theorem matched?_bind_of_some
    {first : Matcher α}
    {second : α → Matcher β}
    {value : α}
    (found : (first cs).matched? = some (value, rest)) :
    ((first >>= second) cs).matched? = (second value rest).matched? := by
  rw [matched?_bind, found, Option.bind_some]

theorem matched?_bind_of_none
    {first : Matcher α}
    {second : α → Matcher β}
    (notFound : (first cs).matched? = none) :
    ((first >>= second) cs).matched? = none := by
  rw [matched?_bind, notFound, Option.bind_none]

/-- A choice answers what its first matcher finds, otherwise what its second finds. -/
theorem matched?_orElse
    (first second : Matcher α) :
    (orElse first second cs).matched? = (first cs).matched?.or (second cs).matched? := by
  unfold orElse
  cases found : (first cs).matched? <;> simp [found]

@[simp] theorem matched?_firstOf_nil :
    (firstOf [] cs : Outcome α).matched? = none :=
  rfl

@[simp] theorem matched?_firstOf_cons
    (ms : List (Matcher α)) :
    (firstOf (m :: ms) cs).matched? = (m cs).matched?.or (firstOf ms cs).matched? :=
  matched?_orElse m (firstOf ms)

@[simp] theorem matched?_optional :
    (m.optional cs).matched? =
      some (((m cs).matched?.map fun found => (some found.1, found.2)).getD (none, cs)) := by
  rw [optional, matched?_orElse, matched?_andThen]
  cases (m cs).matched? <;> simp

/-- An optional part that is not found leaves the text as it is. -/
theorem matched?_optional_of_none
    (notFound : (m cs).matched? = none) :
    (m.optional cs).matched? = some (none, cs) := by
  rw [matched?_optional, notFound]
  rfl

/-- An optional part is found where the part is. -/
theorem matched?_optional_of_some
    {value : α}
    (found : (m cs).matched? = some (value, rest)) :
    (m.optional cs).matched? = some (some value, rest) := by
  rw [matched?_optional, found]
  rfl

@[simp] theorem matched?_rule :
    (m.rule cs).matched? = (m cs).matched? := by
  unfold rule
  cases found : (m cs).matched? <;> simp [found]

@[simp] theorem matched?_token
    (scan : List Char → Option (α × List Char)) :
    (token scan cs).matched? = scan cs := by
  unfold token
  cases scan cs <;> rfl

@[simp] theorem matched?_sign_cons
    (expected c : Char) :
    (sign expected (c :: cs)).matched? = if c = expected then some ((), cs) else none := by
  unfold sign
  dsimp only
  split <;> rfl

@[simp] theorem matched?_sign_nil
    (expected : Char) :
    (sign expected []).matched? = none :=
  rfl

@[simp] theorem matched?_left :
    (left cs).matched? = some (cs.length, cs) :=
  rfl

@[simp] theorem matched?_layout :
    (Grammar.layout cs).matched? = some ((), skipLayout .between cs) :=
  rfl

/-- A repetition stops where its part does not match. -/
theorem matched?_upTo_of_none
    (notFound : (m cs).matched? = none)
    (count : Nat) :
    (m.upTo count cs).matched? = some ([], cs) := by
  cases count with
  | zero => rfl
  | succ count => rw [upTo, matched?_orElse, matched?_andThen, notFound]; rfl

/-- A repetition goes on behind every match of its part. -/
theorem matched?_upTo_of_some
    {value : α}
    {count : Nat}
    {others : List α × List Char}
    (found : (m cs).matched? = some (value, rest))
    (more : (m.upTo count rest).matched? = some others) :
    (m.upTo (count + 1) cs).matched? = some (value :: others.1, others.2) := by
  rw [upTo, matched?_orElse, matched?_andThen, found, Option.bind_some, matched?_andThen, more]
  rfl

/-- A repetition always has an answer. -/
theorem exists_matched?_upTo
    (m : Matcher α)
    (count : Nat)
    (cs : List Char) :
    ∃ found, (m.upTo count cs).matched? = some found := by
  cases count with
  | zero => exact ⟨_, rfl⟩
  | succ count =>
      rw [upTo, matched?_orElse]
      cases ((m.andThen fun value => (m.upTo count).andThen fun values =>
        succeed (value :: values)) cs).matched? with
      | none => exact ⟨([], cs), rfl⟩
      | some found => exact ⟨found, rfl⟩

/-- A part that is not found is found no times. -/
theorem matched?_many_of_none
    (notFound : (m cs).matched? = none) :
    (m.many cs).matched? = some ([], cs) :=
  matched?_upTo_of_none notFound _

/-- A part that is found is the first of those found. -/
theorem matched?_many_of_some
    {value : α}
    {others : List α × List Char}
    (found : (m cs).matched? = some (value, rest))
    (more : (m.upTo cs.length rest).matched? = some others) :
    (m.many cs).matched? = some (value :: others.1, others.2) :=
  matched?_upTo_of_some found more

/-- Layout behind a part is taken before what follows. -/
theorem matched?_spaced_bind
    (next : α → Matcher β) :
    ((Grammar.spaced m >>= next) cs).matched? =
      (m cs).matched?.bind fun found =>
        (next found.1 (skipLayout .between found.2)).matched? := by
  rw [matched?_bind, Grammar.spaced, matched?_bind]
  cases (m cs).matched? <;> rfl

end FullTextQuery.Query.Matcher

namespace FullTextQuery.Query

/-- A text is read as a query exactly if the matcher of queries reads one. -/
theorem parse_eq_ok_iff
    {text : String}
    {query : Query} :
    Query.parse text = .ok query ↔
      ∃ rest, (Grammar.query text.toList).matched? = some (.ok query, rest) := by
  unfold Query.parse Query.ofChars
  rcases matched : (Grammar.query text.toList).matched? with _ | ⟨_ | _, rest⟩ <;>
    simp [matched]

end FullTextQuery.Query
