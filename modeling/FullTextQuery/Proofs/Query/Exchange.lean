import FullTextQuery.Proofs.Query.Related

/-- What related elements have in another order, related lists have in another order. -/
theorem List.flatMap_perm_of_forall₂
    {f : α → List γ}
    {g : β → List γ}
    {items : List α}
    {others : List β}
    (each : List.Forall₂ (fun item other => (g other).Perm (f item)) items others) :
    (others.flatMap g).Perm (items.flatMap f) := by
  induction each with
  | nil => exact .refl _
  | cons first _ inductionHypothesis =>
      rw [List.flatMap_cons, List.flatMap_cons]
      exact first.append inductionHypothesis

namespace FullTextQuery

/-!
# Exchanging the operands of equalities

Expressions that differ in which operand of some equalities stands first.  Search calls
and literals stay as they are, so the shape of a query does not change.
-/

/-- Whether a comparison asks for equality or its contrary. -/
def Comparison.IsEquality
    (op : Comparison) :
    Prop :=
  op = .eq ∨ op = .notEq

instance
    (op : Comparison) :
    Decidable op.IsEquality :=
  inferInstanceAs (Decidable (_ ∨ _))

namespace Expr

/-- Whether an expression is an operand that may stand on either side: neither null nor a search. -/
def StandsAnywhere
    (e : Expr) :
    Prop :=
  e ≠ .literal .null ∧ e.searchCall? = none

/-- Expressions that differ in the order of the operands of some equalities. -/
inductive Exchanged (allowed : Expr → Prop) : Expr → Expr → Prop where
  | refl
      (e : Expr) :
      Exchanged allowed e e
  | exchange
      {left right : Expr}
      {op : Comparison}
      (isEquality : op.IsEquality)
      (leftAllowed : allowed left)
      (rightAllowed : allowed right) :
      Exchanged allowed (.compare left op right) (.compare right op left)
  | compare
      {left otherLeft right otherRight : Expr}
      {op : Comparison}
      (leftExchanged : Exchanged allowed left otherLeft)
      (rightExchanged : Exchanged allowed right otherRight) :
      Exchanged allowed (.compare left op right) (.compare otherLeft op otherRight)
  | and
      {left otherLeft right otherRight : Expr}
      (leftExchanged : Exchanged allowed left otherLeft)
      (rightExchanged : Exchanged allowed right otherRight) :
      Exchanged allowed (.and left right) (.and otherLeft otherRight)
  | or
      {left otherLeft right otherRight : Expr}
      (leftExchanged : Exchanged allowed left otherLeft)
      (rightExchanged : Exchanged allowed right otherRight) :
      Exchanged allowed (.or left right) (.or otherLeft otherRight)
  | not
      {operand otherOperand : Expr}
      (exchanged : Exchanged allowed operand otherOperand) :
      Exchanged allowed (.not operand) (.not otherOperand)
  | call
      {function : String}
      {before after : List Expr}
      {arg otherArg : Expr}
      (exchanged : Exchanged allowed arg otherArg) :
      Exchanged allowed (.call function (before ++ arg :: after))
        (.call function (before ++ otherArg :: after))

namespace Exchanged

variable {allowed : Expr → Prop} {e other : Expr}

/-- Exchanging operands back is an exchange. -/
theorem symm
    (exchanged : Exchanged allowed e other) :
    Exchanged allowed other e := by
  induction exchanged with
  | refl e => exact .refl e
  | exchange isEquality left right => exact .exchange isEquality right left
  | compare _ _ left right => exact .compare left right
  | and _ _ left right => exact .and left right
  | or _ _ left right => exact .or left right
  | not _ operand => exact .not operand
  | call _ arg => exact .call arg

/-- A search call has no equality in it. -/
theorem eq_of_searchCall?
    (exchanged : Exchanged allowed e other)
    {searched : String × SearchPhrase}
    (isSearch : e.searchCall? = some searched) :
    other = e := by
  obtain ⟨text, isCall, isPhrase⟩ := searchCall?_eq_some.mp isSearch
  cases exchanged with
  | refl => rfl
  | @call function before after arg otherArg exchanged =>
      obtain ⟨rfl, areArgs⟩ := Expr.call.inj isCall
      -- The item and the text of a search have no parts.
      have same : otherArg = arg := by
        match before, areArgs with
        | [], areArgs =>
            obtain ⟨rfl, _⟩ := List.cons.inj areArgs
            cases exchanged
            rfl
        | [_], areArgs =>
            obtain ⟨_, areArgs⟩ := List.cons.inj areArgs
            obtain ⟨rfl, _⟩ := List.cons.inj areArgs
            cases exchanged with
            | refl => rfl
            | _ => cases isPhrase
        | _ :: _ :: _, areArgs => simp at areArgs
      rw [same]
  | _ => cases isCall

/-- What is no search call is none with its equalities exchanged. -/
theorem searchCall?_eq_none
    (exchanged : Exchanged allowed e other)
    (notSearch : e.searchCall? = none) :
    other.searchCall? = none := by
  rw [Option.eq_none_iff_forall_ne_some]
  intro searched isSearch
  rw [exchanged.symm.eq_of_searchCall? isSearch, isSearch] at notSearch
  cases notSearch

/-- Only a literal becomes a literal when operands are exchanged. -/
theorem literal_iff
    (exchanged : Exchanged allowed e other)
    (value : Value) :
    other = .literal value ↔ e = .literal value := by
  cases exchanged <;> simp

/-- The same search calls are in both, if perhaps in another order. -/
theorem searchCalls_perm
    (exchanged : Exchanged allowed e other) :
    other.searchCalls.Perm e.searchCalls := by
  induction exchanged with
  | refl e => exact .refl _
  | exchange isEquality left right =>
      rw [searchCalls_compare, searchCalls_compare]
      exact List.perm_append_comm
  | compare _ _ left right =>
      rw [searchCalls_compare, searchCalls_compare]
      exact left.append right
  | and _ _ left right =>
      rw [searchCalls_and, searchCalls_and]
      exact left.append right
  | or _ _ left right =>
      rw [searchCalls_or, searchCalls_or]
      exact left.append right
  | not _ operand =>
      rw [searchCalls_not, searchCalls_not]
      exact operand
  | @call function before after arg otherArg exchanged same =>
      have whole : Exchanged allowed (.call function (before ++ arg :: after))
          (.call function (before ++ otherArg :: after)) := .call exchanged
      cases isSearch : (Expr.call function (before ++ arg :: after)).searchCall? with
      | some searched => rw [whole.eq_of_searchCall? isSearch]
      | none =>
          rw [searchCalls_call isSearch, searchCalls_call (whole.searchCall?_eq_none isSearch)]
          simp only [List.flatMap_append, List.flatMap_cons]
          exact (same.append_right _).append_left _

/-- Expressions that differ in the order of operands are the same member, or both are none. -/
theorem namedAlike
    (exchanged : Exchanged allowed e other) :
    e.NamedAlike other := by
  cases exchanged with
  | refl => exact .inl rfl
  | _ => exact .inr ⟨by simp, by simp⟩

end Exchanged

end Expr

end FullTextQuery
