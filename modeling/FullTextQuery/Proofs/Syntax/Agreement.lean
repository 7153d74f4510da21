import FullTextQuery.Proofs.Syntax.Lexemes

namespace FullTextQuery.Syntax

/-!
# Matchers against expressions of the grammar

A matcher takes a part off a text as an expression of the grammar does, up to
layout: the grammar also takes the layout in front of optional parts that are
then missing.  Agreement is asked for texts below a bound, so that it can be
proved of nested expressions before the expressions around them, and says how
many characters a match takes at least.
-/

open PegGrammar Query.Matcher

variable {α β γ : Type} {p first second : Peg Rule} {least target bound inner : Nat}
  {cs rest : List Char}

/--
What an expression makes of a text and what a matcher makes of it, whose text has a
given length: both fail, or both match and leave the same behind layout.
-/
inductive Agrees (p : Peg Rule) (least : Nat) (reads : α → List (Tree Rule) → Prop)
    (cs : List Char) (size : Nat) : Option (α × List Char) → Prop where
  | fails : grammar.Parses p cs none → Agrees p least reads cs size none
  | found {value : α} {trees : List (Tree Rule)} {last rest : List Char} :
      grammar.Parses p cs (some (trees, last)) → reads value trees →
        Query.skipLayout .between last = Query.skipLayout .between rest →
          rest.length + least ≤ size →
            Agrees p least reads cs size (some (value, rest))

/-- A matcher takes what an expression matches. -/
def Mirrors
    (bound least : Nat)
    (p : Peg Rule)
    (reads : α → List (Tree Rule) → Prop)
    (m : Query.Matcher α) :
    Prop :=
  ∀ cs : List Char, cs.length < bound → Agrees p least reads cs cs.length (m cs).matched?

/-- A matcher takes layout and what an expression matches behind it. -/
def Follows
    (bound least : Nat)
    (p : Peg Rule)
    (reads : α → List (Tree Rule) → Prop)
    (m : Query.Matcher α) :
    Prop :=
  ∀ cs : List Char, cs.length < bound →
    Agrees p least reads (Query.skipLayout .between cs) cs.length (m cs).matched?

section WithoutLayout

variable {reads : α → List (Tree Rule) → Prop} {reads' : β → List (Tree Rule) → Prop}
  {m : Query.Matcher α} {next : α → Query.Matcher β}

/-- The rule of a sign takes it where the scanner does. -/
theorem Takes.sign
    (c : Char)
    (cs : List Char) :
    Takes (chars (String.ofList [c])) (fun _ trees => trees = []) cs
      (Query.Matcher.sign c cs).matched? := by
  cases cs with
  | nil => exact .fails ((takesOne_char c).fails Text.stops_nil)
  | cons d rest =>
      rw [matched?_sign_cons]
      by_cases same : d = c
      · rw [if_pos same]
        exact .found ((takesOne_char c).takes rest (by simpa using same)) rfl (by simp)
      · rw [if_neg same]
        exact .fails ((takesOne_char c).fails (by simpa using same))

/-- Two parts that touch each other. -/
theorem Takes.andThen
    (one : Takes first reads cs (m cs).matched?)
    (two : ∀ value trees, reads value trees → ∀ cs,
      Takes second (fun result more => reads' result (trees ++ more)) cs
        (next value cs).matched?) :
    Takes (.seq first second) reads' cs ((m >>= next) cs).matched? := by
  rw [matched?_bind]
  generalize (m cs).matched? = answer at one
  cases one with
  | fails parses => exact .fails (.seqFails parses)
  | @found value rest trees parses isRead shorter =>
      rw [Option.bind_some]
      have taken := two value trees isRead rest
      generalize (next value rest).matched? = answer at taken
      cases taken with
      | fails parsesNext => exact .fails (.andThenFails parses parsesNext)
      | found parsesNext isReadNext shorterNext =>
          exact .found (.andThen parses parsesNext) isReadNext (by omega)

/-- The value of a part is turned into another one. -/
theorem Takes.finish
    {f : α → β}
    (one : Takes p reads cs (m cs).matched?)
    (answers : ∀ value cs, (next value cs).matched? = some (f value, cs))
    (implies : ∀ value trees, reads value trees → reads' (f value) trees) :
    Takes p reads' cs ((m >>= next) cs).matched? := by
  rw [matched?_bind]
  generalize (m cs).matched? = answer at one
  cases one with
  | fails parses => exact .fails parses
  | found parses isRead shorter =>
      rw [Option.bind_some, answers]
      exact .found parses (implies _ _ isRead) shorter

end WithoutLayout

/-- Parts read one by one, and the trees of all of them. -/
inductive Gathered (reads : α → List (Tree Rule) → Prop) :
    List α → List (Tree Rule) → Prop where
  | nil : Gathered reads [] []
  | cons {value : α} {values : List α} {front back : List (Tree Rule)} :
      reads value front → Gathered reads values back →
        Gathered reads (value :: values) (front ++ back)

theorem length_skipLayout_le
    (cs : List Char) :
    (Query.skipLayout .between cs).length ≤ cs.length :=
  (Query.skipLayout_suffix cs).length_le

section Composition

variable {reads : α → List (Tree Rule) → Prop} {reads' : β → List (Tree Rule) → Prop}
  {m : Query.Matcher α} {next : α → Query.Matcher β}

/-- A matcher that mirrors a rule on long texts does so on shorter ones. -/
theorem Mirrors.mono
    (mirrors : Mirrors bound least p reads m)
    (smaller : inner ≤ bound) :
    Mirrors inner least p reads m :=
  fun cs short => mirrors cs (by omega)

theorem Agrees.weaken
    {stronger : α → List (Tree Rule) → Prop}
    {size : Nat}
    {answer : Option (α × List Char)}
    (agrees : Agrees p least stronger cs size answer)
    (implies : ∀ value trees, stronger value trees → reads value trees)
    (enough : target ≤ least) :
    Agrees p target reads cs size answer := by
  cases agrees with
  | fails parses => exact .fails parses
  | found parses isRead same shorter =>
      exact .found parses (implies _ _ isRead) same (by omega)

theorem Mirrors.weaken
    {stronger : α → List (Tree Rule) → Prop}
    (mirrors : Mirrors bound least p stronger m)
    (implies : ∀ value trees, stronger value trees → reads value trees)
    (enough : target ≤ least) :
    Mirrors bound target p reads m :=
  fun cs short => (mirrors cs short).weaken implies enough

theorem Follows.weaken
    {stronger : α → List (Tree Rule) → Prop}
    (follows : Follows bound least p stronger m)
    (implies : ∀ value trees, stronger value trees → reads value trees)
    (enough : target ≤ least) :
    Follows bound target p reads m :=
  fun cs short => (follows cs short).weaken implies enough

/-- What a scanner takes without layout is taken. -/
theorem Mirrors.ofTakes
    (takes : ∀ cs, Takes p reads cs (m cs).matched?) :
    Mirrors bound 1 p reads m := by
  intro cs _
  generalize matched : (m cs).matched? = answer
  cases matched ▸ takes cs with
  | fails parses => exact .fails parses
  | found parses isRead shorter => exact .found parses isRead rfl (by omega)

theorem Mirrors.sign
    (c : Char) :
    Mirrors bound 1 (chars (String.ofList [c])) (fun _ trees => trees = [])
      (Query.Matcher.sign c) :=
  .ofTakes (Takes.sign c)

/-- Layout in front of what is mirrored. -/
theorem Follows.layout
    (mirrors : Mirrors bound least p reads m) :
    Follows bound least p reads (Query.Grammar.layout >>= fun _ => m) := by
  intro cs short
  rw [matched?_bind_of_some (matched?_layout)]
  have shorter := length_skipLayout_le cs
  have agrees := mirrors (Query.skipLayout .between cs) (by omega)
  generalize (m (Query.skipLayout .between cs)).matched? = answer at agrees
  cases agrees with
  | fails parses => exact .fails parses
  | found parses isRead same shorter => exact .found parses isRead same (by omega)

/-- Two agreeing parts in sequence, with layout between them. -/
theorem Agrees.andThen
    {size : Nat}
    {start : List Char}
    (one : Agrees first least reads start size (m cs).matched?)
    (two : ∀ value trees, reads value trees →
      Follows inner 0 second (fun result more => reads' result (trees ++ more)) (next value))
    (smaller : size < inner + least)
    (enough : target ≤ least) :
    Agrees (.seq first (.seq Syntax.layout second)) target reads' start size
      ((m >>= next) cs).matched? := by
  rw [matched?_bind]
  generalize (m cs).matched? = answer at one
  cases one with
  | fails parses => exact .fails (.seqFails parses)
  | @found value trees last rest parses isRead same shorter =>
      rw [Option.bind_some]
      have agrees := two value trees isRead rest (by omega)
      have between := parses_layout last
      rw [same] at between
      generalize (next value rest).matched? = answer at agrees
      cases agrees with
      | fails parsesNext =>
          exact .fails (.andThenFails parses (.andThenFails between parsesNext))
      | found parsesNext isReadNext sameNext shorterNext =>
          exact .found (.andThen parses (.andThen between parsesNext)) isReadNext sameNext
            (by omega)

/-- A rule and one behind it are mirrored if what comes behind layout follows the second. -/
theorem Mirrors.andThen
    (one : Mirrors bound least first reads m)
    (enough : target ≤ least)
    (two : ∀ value trees, reads value trees →
      Follows bound 0 second (fun result more => reads' result (trees ++ more)) (next value)) :
    Mirrors bound target (.seq first (.seq Syntax.layout second)) reads' (m >>= next) :=
  fun cs short => (one cs short).andThen two (by omega) enough

theorem Follows.andThen
    (one : Follows bound least first reads m)
    (enough : target ≤ least)
    (two : ∀ value trees, reads value trees →
      Follows bound 0 second (fun result more => reads' result (trees ++ more)) (next value)) :
    Follows bound target (.seq first (.seq Syntax.layout second)) reads' (m >>= next) :=
  fun cs short => (one cs short).andThen two (by omega) enough

/-- A part and the layout behind it, then the next part. -/
theorem Agrees.spacedThen
    {size : Nat}
    {start : List Char}
    (one : Agrees first least reads start size (m cs).matched?)
    (two : ∀ value trees, reads value trees →
      Mirrors inner 0 second (fun result more => reads' result (trees ++ more)) (next value))
    (smaller : size < inner + least)
    (enough : target ≤ least) :
    Agrees (.seq first (.seq Syntax.layout second)) target reads' start size
      ((Query.Grammar.spaced m >>= next) cs).matched? := by
  have behind : ∀ value trees, reads value trees →
      Follows inner 0 second (fun result more => reads' result (trees ++ more))
        (Query.Grammar.layout >>= fun _ => next value) :=
    fun value trees isRead => .layout (two value trees isRead)
  have agrees := one.andThen behind smaller enough
  rw [matched?_bind] at agrees
  rw [matched?_spaced_bind]
  exact agrees

theorem Mirrors.spacedThen
    (one : Mirrors bound least first reads m)
    (enough : target ≤ least)
    (two : ∀ value trees, reads value trees →
      Mirrors bound 0 second (fun result more => reads' result (trees ++ more)) (next value)) :
    Mirrors bound target (.seq first (.seq Syntax.layout second)) reads'
      (Query.Grammar.spaced m >>= next) :=
  fun cs short => (one cs short).spacedThen two (by omega) enough

/-- What follows a part of at least one character is shorter. -/
theorem Mirrors.spacedThenShorter
    (one : Mirrors (inner + 1) 1 first reads m)
    (two : ∀ value trees, reads value trees →
      Mirrors inner 0 second (fun result more => reads' result (trees ++ more)) (next value)) :
    Mirrors (inner + 1) 1 (.seq first (.seq Syntax.layout second)) reads'
      (Query.Grammar.spaced m >>= next) :=
  fun cs short => (one cs short).spacedThen two short le_rfl

/-- The value of the last part is turned into the value of the whole. -/
theorem Agrees.finish
    {size : Nat}
    {start : List Char}
    {f : α → β}
    (one : Agrees p least reads start size (m cs).matched?)
    (enough : target ≤ least)
    (answers : ∀ value cs, (next value cs).matched? = some (f value, cs))
    (implies : ∀ value trees, reads value trees → reads' (f value) trees) :
    Agrees p target reads' start size ((m >>= next) cs).matched? := by
  rw [matched?_bind]
  generalize (m cs).matched? = answer at one
  cases one with
  | fails parses => exact .fails parses
  | found parses isRead same shorter =>
      rw [Option.bind_some, answers]
      exact .found parses (implies _ _ isRead) same (by dsimp only; omega)

/-- A matcher that only changes its value mirrors the same rule. -/
theorem Mirrors.finish
    {f : α → β}
    (one : Mirrors bound least p reads m)
    (enough : target ≤ least)
    (answers : ∀ value cs, (next value cs).matched? = some (f value, cs))
    (implies : ∀ value trees, reads value trees → reads' (f value) trees) :
    Mirrors bound target p reads' (m >>= next) :=
  fun cs short => (one cs short).finish enough answers implies

theorem Follows.finish
    {f : α → β}
    (one : Follows bound least p reads m)
    (enough : target ≤ least)
    (answers : ∀ value cs, (next value cs).matched? = some (f value, cs))
    (implies : ∀ value trees, reads value trees → reads' (f value) trees) :
    Follows bound target p reads' (m >>= next) :=
  fun cs short => (one cs short).finish enough answers implies

/-- A named rule that leaves a tree around what is mirrored. -/
theorem Mirrors.rule
    {r : Rule}
    (leaves : ∀ text parts, grammar.trees r text parts = [.node r text parts])
    (inside : Mirrors bound least (grammar.inside r)
      (fun value parts => ∀ text, reads value [.node r text parts]) m) :
    Mirrors bound least (.rule r) reads m.rule := by
  intro cs short
  rw [matched?_rule]
  have agrees := inside cs short
  generalize (m cs).matched? = answer at agrees
  cases agrees with
  | fails parses => exact .fails (.ofInsideFails parses)
  | found parses isRead same shorter =>
      exact .found (.ofInside parses) (by rw [leaves]; exact isRead _) same shorter

end Composition

section Alternatives

variable {reads : α → List (Tree Rule) → Prop} {m one two : Query.Matcher α}

/-- A choice of rules is mirrored by a choice of matchers. -/
theorem Mirrors.orElse
    (firstMirrors : Mirrors bound least first reads one)
    (secondMirrors : Mirrors bound least second reads two) :
    Mirrors bound least (.choice first second) reads (orElse one two) := by
  intro cs short
  rw [matched?_orElse]
  have agrees := firstMirrors cs short
  have agreesNext := secondMirrors cs short
  generalize (one cs).matched? = answer at agrees
  cases agrees with
  | found parses isRead same shorter =>
      exact .found (.choiceFirst parses) isRead same shorter
  | fails parses =>
      rw [Option.none_or]
      generalize (two cs).matched? = answerNext at agreesNext
      cases agreesNext with
      | fails parsesNext => exact .fails (.choiceSecond parses parsesNext)
      | found parsesNext isRead same shorter =>
          exact .found (.choiceSecond parses parsesNext) isRead same shorter

/-- The last of several alternatives. -/
theorem Mirrors.only
    (mirrors : Mirrors bound least p reads m) :
    Mirrors bound least p reads (Query.Matcher.firstOf [m]) := by
  intro cs short
  rw [matched?_firstOf_cons, matched?_firstOf_nil, Option.or_none]
  exact mirrors cs short

variable {answers : Option α → List (Tree Rule) → Prop}

/-- An optional rule is mirrored by an optional matcher. -/
theorem Mirrors.optional
    (mirrors : Mirrors bound least p reads m)
    (absent : answers none [])
    (present : ∀ value trees, reads value trees → answers (some value) trees) :
    Mirrors bound 0 (.optional p) answers m.optional := by
  intro cs short
  rw [matched?_optional]
  have agrees := mirrors cs short
  generalize (m cs).matched? = answer at agrees
  cases agrees with
  | fails parses => exact .found (.choiceSecond parses .empty) absent rfl le_rfl
  | found parses isRead same shorter =>
      exact .found (.choiceFirst parses) (present _ _ isRead) same (by dsimp only; omega)

/-- An optional part behind layout, which is left where the part is missing. -/
theorem Follows.optional
    (mirrors : Mirrors bound least p reads m)
    (absent : answers none [])
    (present : ∀ value trees, reads value trees → answers (some value) trees) :
    Follows bound 0 (.optional p) answers
      (Query.Matcher.optional (Query.Grammar.layout >>= fun _ => m)) := by
  intro cs short
  rw [matched?_optional]
  have agrees := Follows.layout mirrors cs short
  generalize ((Query.Grammar.layout >>= fun _ => m) cs).matched? = answer at agrees
  cases agrees with
  | fails parses =>
      exact .found (.choiceSecond parses .empty) absent (Query.skipLayout_skipLayout cs) le_rfl
  | found parses isRead same shorter =>
      exact .found (.choiceFirst parses) (present _ _ isRead) same (by dsimp only; omega)

/-- Repetitions behind the first one, from any place that is left the same behind layout. -/
theorem exists_upTo
    (mirrors : Mirrors bound 1 p reads m)
    {count : Nat}
    {start : List Char}
    (short : cs.length < bound)
    (enough : cs.length < count)
    (same : Query.skipLayout .between start = Query.skipLayout .between cs) :
    ∃ values rest trees last,
      (((Query.Grammar.layout >>= fun _ => m).upTo count) cs).matched? = some (values, rest) ∧
        grammar.Parses (.many (.seq Syntax.layout p)) start (some (trees, last)) ∧
          Gathered reads values trees ∧
            Query.skipLayout .between last = Query.skipLayout .between rest ∧
              rest.length ≤ cs.length := by
  induction count generalizing cs start with
  | zero => omega
  | succ count inductionHypothesis =>
      have agrees := Follows.layout mirrors cs short
      have between := parses_layout start
      rw [same] at between
      generalize matched : ((Query.Grammar.layout >>= fun _ => m) cs).matched? = answer at agrees
      cases agrees with
      | fails parses =>
          exact ⟨[], cs, [], start, matched?_upTo_of_none matched _,
            .manyStops (.andThenFails between parses), .nil, same, le_rfl⟩
      | @found value trees last rest parses isRead sameNext shorter =>
          obtain ⟨values, rest', trees', last', repeated, parsesMore, gathered, sameLast,
              shorter'⟩ :=
            inductionHypothesis (by omega) (by omega) sameNext
          exact ⟨value :: values, rest', trees ++ trees', last',
            matched?_upTo_of_some matched repeated,
            .more (.andThen between parses) parsesMore, .cons isRead gathered, sameLast, by omega⟩

/-- Any number of parts behind layout each. -/
theorem Follows.many
    (mirrors : Mirrors bound 1 p reads m) :
    Follows bound 0 (.optional (.seq p (.many (.seq Syntax.layout p)))) (Gathered reads)
      (Query.Matcher.many (Query.Grammar.layout >>= fun _ => m)) := by
  intro cs short
  have agrees := Follows.layout mirrors cs short
  generalize matched : ((Query.Grammar.layout >>= fun _ => m) cs).matched? = answer at agrees
  unfold Query.Matcher.many
  cases agrees with
  | fails parses =>
      rw [matched?_upTo_of_none matched]
      exact .found (.choiceSecond (.seqFails parses) .empty) .nil
        (Query.skipLayout_skipLayout cs) le_rfl
  | @found value trees last rest parses isRead same shorter =>
      obtain ⟨values, rest', trees', last', repeated, parsesMore, gathered, sameLast, shorter'⟩ :=
        exists_upTo mirrors (by omega : rest.length < bound) (by omega : _ < cs.length) same
      rw [matched?_upTo_of_some matched repeated]
      exact .found (.choiceFirst (.andThen parses parsesMore)) (.cons isRead gathered) sameLast
        (by dsimp only; omega)

/-- Parts with commas between them. -/
theorem Mirrors.separated
    (mirrors : Mirrors bound 1 p reads m) :
    Mirrors bound 1
      (.seq p (.seq Syntax.layout
        (.optional (.seq (.seq (chars ",") (.seq Syntax.layout p))
          (.many (.seq Syntax.layout (.seq (chars ",") (.seq Syntax.layout p))))))))
      (Gathered reads) (Query.Grammar.separated m) := by
  have comma : Mirrors bound 1 (.seq (chars ",") (.seq Syntax.layout p)) reads
      (Query.Matcher.sign ',' >>= fun _ => Query.Grammar.layout >>= fun _ => m) := by
    refine (Mirrors.sign ',').andThen le_rfl fun _ noTrees none => ?_
    subst none
    exact (Follows.layout mirrors).weaken (fun _ _ isRead => isRead) (by omega)
  refine mirrors.andThen le_rfl fun value trees isRead => ?_
  exact (Follows.many comma).finish le_rfl (fun _ _ => rfl) fun values more gathered =>
    .cons isRead gathered

end Alternatives

end FullTextQuery.Syntax
