import FullTextQuery.Proofs.Query.Relaid

namespace FullTextQuery.Query

/-!
# Matchers on texts laid out anew

Matchers built from parts that keep what they do on aligned texts keep it as well.
How deep expressions are nested is bounded by the lengths of the two texts, so the
matchers on the two sides may differ in their bounds.
-/

open Matcher

variable {α β : Type} {places : List Char → List Char → Prop} {least target : Nat}
  {bound bound' inner inner' : Nat} {cs cs' : List Char}
  {related : α → α → Prop} {related' : β → β → Prop}

/--
What two matchers make of two texts: both fail, or both take at least so many
characters, answer related values and leave places that are aligned behind layout.
-/
inductive SameOutcome (least : Nat) (related : α → α → Prop) (cs cs' : List Char) :
    Option (α × List Char) → Option (α × List Char) → Prop where
  | fails : SameOutcome least related cs cs' none none
  | found {value value' : α} {rest rest' : List Char} :
      related value value' → AlignedBehind rest rest' →
        rest.length + least ≤ cs.length → rest'.length + least ≤ cs'.length →
          SameOutcome least related cs cs' (some (value, rest)) (some (value', rest'))

/-- Two matchers do the same at corresponding places of texts below the bounds. -/
def Keeps
    (places : List Char → List Char → Prop)
    (bound bound' least : Nat)
    (related : α → α → Prop)
    (m m' : Matcher α) :
    Prop :=
  ∀ ⦃cs cs' : List Char⦄, places cs cs' → cs.length < bound → cs'.length < bound' →
    SameOutcome least related cs cs' (m cs).matched? (m' cs').matched?

namespace SameOutcome

variable {m m' : Matcher α} {next next' : α → Matcher β} {answer answer' : Option (α × List Char)}

/-- Related outcomes are related in a weaker way. -/
theorem weaken
    {weaker : α → α → Prop}
    (same : SameOutcome least related cs cs' answer answer')
    (implies : ∀ value value', related value value' → weaker value value')
    (enough : target ≤ least) :
    SameOutcome target weaker cs cs' answer answer' := by
  cases same with
  | fails => exact .fails
  | found isRelated aligned shorter shorter' =>
      exact .found (implies _ _ isRelated) aligned (by omega) (by omega)

/-- Matching goes on in both texts from the places that the first parts leave. -/
theorem bind
    (one : SameOutcome least related cs cs' (m cs).matched? (m' cs').matched?)
    (two : ∀ value value' rest rest', related value value' → AlignedBehind rest rest' →
      rest.length + least ≤ cs.length → rest'.length + least ≤ cs'.length →
        SameOutcome 0 related' rest rest' (next value rest).matched?
          (next' value' rest').matched?)
    (enough : target ≤ least) :
    SameOutcome target related' cs cs' ((m >>= next) cs).matched?
      ((m' >>= next') cs').matched? := by
  rw [matched?_bind, matched?_bind]
  generalize (m cs).matched? = answer at one
  generalize (m' cs').matched? = answer' at one
  cases one with
  | fails => exact .fails
  | @found value value' rest rest' isRelated aligned shorter shorter' =>
      rw [Option.bind_some, Option.bind_some]
      have more := two value value' rest rest' isRelated aligned shorter shorter'
      generalize (next value rest).matched? = answer at more
      generalize (next' value' rest').matched? = answer' at more
      cases more with
      | fails => exact .fails
      | found isRelated aligned moreTaken moreTaken' =>
          exact .found isRelated aligned (by omega) (by omega)

/-- The second alternatives are tried where the first ones fail. -/
theorem or
    {other other' : Option (α × List Char)}
    (one : SameOutcome least related cs cs' answer answer')
    (two : answer = none → SameOutcome least related cs cs' other other') :
    SameOutcome least related cs cs' (answer.or other) (answer'.or other') := by
  cases one with
  | fails => exact two rfl
  | found isRelated aligned shorter shorter' => exact .found isRelated aligned shorter shorter'

end SameOutcome

namespace Keeps

section Composition

variable {m m' : Matcher α} {next next' : α → Matcher β}

theorem weaken
    {weaker : α → α → Prop}
    (keeps : Keeps places bound bound' least related m m')
    (implies : ∀ value value', related value value' → weaker value value')
    (enough : target ≤ least) :
    Keeps places bound bound' target weaker m m' :=
  fun _ _ corresponds short short' => (keeps corresponds short short').weaken implies enough

theorem atLeast
    (keeps : Keeps places bound bound' least related m m')
    (enough : target ≤ least) :
    Keeps places bound bound' target related m m' :=
  keeps.weaken (fun _ _ isRelated => isRelated) enough

theorem mono
    (keeps : Keeps places bound bound' least related m m')
    (within : inner ≤ bound)
    (within' : inner' ≤ bound') :
    Keeps places inner inner' least related m m' :=
  fun _ _ corresponds short short' => keeps corresponds (by omega) (by omega)

theorem rule
    (keeps : Keeps places bound bound' least related m m') :
    Keeps places bound bound' least related m.rule m'.rule := by
  intro cs cs' corresponds short short'
  rw [matched?_rule, matched?_rule]
  exact keeps corresponds short short'

theorem token
    {scan : List Char → Option (α × List Char)}
    (scans : ∀ ⦃cs cs'⦄, places cs cs' → SameOutcome least related cs cs' (scan cs) (scan cs')) :
    Keeps places bound bound' least related (token scan) (token scan) := by
  intro cs cs' corresponds _ _
  rw [matched?_token, matched?_token]
  exact scans corresponds

/-- Matching in front of layout and behind it are the same for what skips the layout first. -/
theorem layout
    (keeps : Keeps Aligned bound bound' least related m m') :
    Keeps AlignedBehind bound bound' least related (Grammar.layout >>= fun _ => m)
      (Grammar.layout >>= fun _ => m') := by
  intro cs cs' aligned short short'
  rw [matched?_bind_of_some matched?_layout, matched?_bind_of_some matched?_layout]
  have shorter := (skipLayout_suffix cs).length_le
  have shorter' := (skipLayout_suffix cs').length_le
  have same := keeps aligned (by omega) (by omega)
  generalize (m (skipLayout .between cs)).matched? = answer at same
  generalize (m' (skipLayout .between cs')).matched? = answer' at same
  cases same with
  | fails => exact .fails
  | found isRelated aligned taken taken' => exact .found isRelated aligned (by omega) (by omega)

/-- Parts in sequence; the later ones begin in front of layout. -/
theorem andThen
    (one : Keeps places bound bound' least related m m')
    (enough : target ≤ least)
    (two : ∀ value value', related value value' →
      Keeps AlignedBehind bound bound' 0 related' (next value) (next' value')) :
    Keeps places bound bound' target related' (m >>= next) (m' >>= next') := by
  intro cs cs' corresponds short short'
  refine (one corresponds short short').bind ?_ enough
  intro value value' rest rest' isRelated aligned shorter shorter'
  exact two value value' isRelated aligned (by omega) (by omega)

/-- Layout behind a part is layout in front of the next one. -/
theorem spaced
    (keeps : Keeps places bound bound' least related'
      (m >>= fun value => Grammar.layout >>= fun _ => next value)
      (m' >>= fun value => Grammar.layout >>= fun _ => next' value)) :
    Keeps places bound bound' least related' (Grammar.spaced m >>= next)
      (Grammar.spaced m' >>= next') := by
  intro cs cs' corresponds short short'
  have same := keeps corresponds short short'
  rw [matched?_bind, matched?_bind] at same
  rw [matched?_spaced_bind, matched?_spaced_bind]
  exact same

/-- A part and the layout behind it, then the next part. -/
theorem spacedThen
    (one : Keeps places bound bound' least related m m')
    (enough : target ≤ least)
    (two : ∀ value value', related value value' →
      Keeps Aligned bound bound' 0 related' (next value) (next' value')) :
    Keeps places bound bound' target related' (Grammar.spaced m >>= next)
      (Grammar.spaced m' >>= next') :=
  .spaced (one.andThen enough fun value value' isRelated => (two value value' isRelated).layout)

/-- What follows a part of at least one character is shorter. -/
theorem spacedThenShorter
    (one : Keeps places (bound + 1) (bound' + 1) 1 related m m')
    (two : ∀ value value', related value value' →
      Keeps Aligned bound bound' 0 related' (next value) (next' value')) :
    Keeps places (bound + 1) (bound' + 1) 1 related' (Grammar.spaced m >>= next)
      (Grammar.spaced m' >>= next') := by
  refine .spaced fun cs cs' corresponds short short' => ?_
  refine (one corresponds short short').bind ?_ le_rfl
  intro value value' rest rest' isRelated aligned shorter shorter'
  exact (two value value' isRelated).layout aligned (by omega) (by omega)

/-- The values of the last parts are turned into the values of the whole. -/
theorem finish
    {f g : α → β}
    (one : Keeps places bound bound' least related m m')
    (enough : target ≤ least)
    (answers : ∀ value cs, (next value cs).matched? = some (f value, cs))
    (answers' : ∀ value cs, (next' value cs).matched? = some (g value, cs))
    (implies : ∀ value value', related value value' → related' (f value) (g value')) :
    Keeps places bound bound' target related' (m >>= next) (m' >>= next') := by
  intro cs cs' corresponds short short'
  refine (one corresponds short short').bind ?_ enough
  intro value value' rest rest' isRelated aligned _ _
  rw [answers, answers']
  exact .found (implies _ _ isRelated) aligned le_rfl le_rfl

end Composition

section Alternatives

variable {m m' : Matcher α} {other other' : Matcher α}

/-- A choice keeps what both choices keep. -/
theorem orElse
    (one : Keeps places bound bound' least related m m')
    (two : Keeps places bound bound' least related other other') :
    Keeps places bound bound' least related (orElse m other) (Matcher.orElse m' other') := by
  intro cs cs' corresponds short short'
  rw [matched?_orElse, matched?_orElse]
  exact (one corresponds short short').or fun _ => two corresponds short short'

/-- The last of several alternatives. -/
theorem only
    (keeps : Keeps places bound bound' least related m m') :
    Keeps places bound bound' least related (firstOf [m]) (firstOf [m']) := by
  intro cs cs' corresponds short short'
  rw [matched?_firstOf_cons, matched?_firstOf_cons, matched?_firstOf_nil, matched?_firstOf_nil,
    Option.or_none, Option.or_none]
  exact keeps corresponds short short'

/-- An optional part keeps what the part keeps. -/
theorem optional
    (keeps : Keeps places bound bound' least related m m')
    (behind : ∀ ⦃cs cs'⦄, places cs cs' → AlignedBehind cs cs') :
    Keeps places bound bound' 0 (Option.Rel related) m.optional m'.optional := by
  intro cs cs' corresponds short short'
  rw [matched?_optional, matched?_optional]
  have same := keeps corresponds short short'
  generalize (m cs).matched? = answer at same
  generalize (m' cs').matched? = answer' at same
  cases same with
  | fails => exact .found .none (behind corresponds) le_rfl le_rfl
  | found isRelated aligned shorter shorter' =>
      exact .found (.some isRelated) aligned (by dsimp only; omega) (by dsimp only; omega)

/-- An optional part behind layout, which is left where the part is missing. -/
theorem optionalBehind
    (keeps : Keeps Aligned bound bound' least related m m') :
    Keeps AlignedBehind bound bound' 0 (Option.Rel related)
      (Matcher.optional (Grammar.layout >>= fun _ => m))
      (Matcher.optional (Grammar.layout >>= fun _ => m')) :=
  keeps.layout.optional fun _ _ aligned => aligned

/-- Repetitions take as many parts off both texts. -/
theorem upTo
    (keeps : Keeps AlignedBehind bound bound' 1 related m m')
    {count count' : Nat}
    (aligned : AlignedBehind cs cs')
    (short : cs.length < bound)
    (short' : cs'.length < bound')
    (enough : cs.length < count)
    (enough' : cs'.length < count') :
    SameOutcome 0 (List.Forall₂ related) cs cs' (m.upTo count cs).matched?
      (m'.upTo count' cs').matched? := by
  induction count generalizing cs cs' count' with
  | zero => omega
  | succ count inductionHypothesis =>
      obtain ⟨more, rfl⟩ : ∃ more, count' = more + 1 := ⟨count' - 1, by omega⟩
      have same := keeps aligned short short'
      generalize first : (m cs).matched? = answer at same
      generalize first' : (m' cs').matched? = answer' at same
      cases same with
      | fails =>
          rw [matched?_upTo_of_none first, matched?_upTo_of_none first']
          exact .found .nil aligned le_rfl le_rfl
      | @found value value' rest rest' isRelated alignedRest shorter shorter' =>
          have others := inductionHypothesis alignedRest (by omega) (by omega) (by omega)
            (by omega : _ < more)
          generalize repeated : (m.upTo count rest).matched? = answer at others
          generalize repeated' : (m'.upTo more rest').matched? = answer' at others
          cases others with
          | fails =>
              obtain ⟨found, matched⟩ := exists_matched?_upTo m count rest
              rw [repeated] at matched
              cases matched
          | found areRelated alignedLast taken taken' =>
              rw [matched?_upTo_of_some first repeated, matched?_upTo_of_some first' repeated']
              exact .found (.cons isRelated areRelated) alignedLast (by dsimp only; omega)
                (by dsimp only; omega)

/-- Any number of parts behind layout each. -/
theorem many
    (keeps : Keeps Aligned bound bound' 1 related m m') :
    Keeps AlignedBehind bound bound' 0 (List.Forall₂ related)
      (Matcher.many (Grammar.layout >>= fun _ => m))
      (Matcher.many (Grammar.layout >>= fun _ => m')) :=
  fun _ _ aligned short short' =>
    keeps.layout.upTo aligned short short' (Nat.lt_succ_self _) (Nat.lt_succ_self _)

end Alternatives

end Keeps

end FullTextQuery.Query
