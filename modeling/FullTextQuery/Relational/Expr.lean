import FullTextQuery.Query.Expr

namespace FullTextQuery

/-!
# Relational expressions

What query expressions become before they are written as a statement.  Members
still name an item and a property; resolution replaces them by columns.  A
membership test asks whether its operand is one of the values that a parameter
will hold when the query runs.
-/

/-- The identity of a search call, which joins its membership test to the search of the run. -/
abbrev SearchId : Type :=
  Nat

/-- A relational expression. -/
inductive RelExpr where
  | member (item property : String)
  | column (tableAlias column : String)
  | literal (value : Value)
  | parameter (name : String)
  | compare (left : RelExpr) (op : Comparison) (right : RelExpr)
  | and (left right : RelExpr)
  | or (left right : RelExpr)
  | not (operand : RelExpr)
  | function (name : String) (args : List RelExpr)
  | membership (operand : RelExpr) (parameter : String) (search : SearchId)
  deriving Repr, Inhabited

/-- A membership test on its own. -/
structure Membership where
  operand : RelExpr
  parameter : String
  search : SearchId
  deriving Repr

namespace RelExpr

mutual

/-- Equality of relational expressions is decided node by node. -/
def decEq : (a b : RelExpr) → Decidable (a = b)
  | .member a p, b =>
      match b with
      | .member b q =>
          if h : a = b ∧ p = q then isTrue (by rw [h.1, h.2]) else isFalse (by simpa using h)
      | .column .. | .literal _ | .parameter _ | .compare .. | .and .. | .or .. | .not _
      | .function .. | .membership .. => isFalse (by simp)
  | .column a p, b =>
      match b with
      | .column b q =>
          if h : a = b ∧ p = q then isTrue (by rw [h.1, h.2]) else isFalse (by simpa using h)
      | .member .. | .literal _ | .parameter _ | .compare .. | .and .. | .or .. | .not _
      | .function .. | .membership .. => isFalse (by simp)
  | .literal a, b =>
      match b with
      | .literal b => if h : a = b then isTrue (by rw [h]) else isFalse (by simpa using h)
      | .member .. | .column .. | .parameter _ | .compare .. | .and .. | .or .. | .not _
      | .function .. | .membership .. => isFalse (by simp)
  | .parameter a, b =>
      match b with
      | .parameter b => if h : a = b then isTrue (by rw [h]) else isFalse (by simpa using h)
      | .member .. | .column .. | .literal _ | .compare .. | .and .. | .or .. | .not _
      | .function .. | .membership .. => isFalse (by simp)
  | .compare l o r, b =>
      match b with
      | .compare l' o' r' =>
          match decEq l l', decEq r r' with
          | isTrue hl, isTrue hr =>
              if h : o = o' then isTrue (by rw [hl, hr, h]) else isFalse (by simp [h])
          | isFalse hl, _ => isFalse (by simp [hl])
          | _, isFalse hr => isFalse (by simp [hr])
      | .member .. | .column .. | .literal _ | .parameter _ | .and .. | .or .. | .not _
      | .function .. | .membership .. => isFalse (by simp)
  | .and l r, b =>
      match b with
      | .and l' r' =>
          match decEq l l', decEq r r' with
          | isTrue hl, isTrue hr => isTrue (by rw [hl, hr])
          | isFalse hl, _ => isFalse (by simp [hl])
          | _, isFalse hr => isFalse (by simp [hr])
      | .member .. | .column .. | .literal _ | .parameter _ | .compare .. | .or .. | .not _
      | .function .. | .membership .. => isFalse (by simp)
  | .or l r, b =>
      match b with
      | .or l' r' =>
          match decEq l l', decEq r r' with
          | isTrue hl, isTrue hr => isTrue (by rw [hl, hr])
          | isFalse hl, _ => isFalse (by simp [hl])
          | _, isFalse hr => isFalse (by simp [hr])
      | .member .. | .column .. | .literal _ | .parameter _ | .compare .. | .and .. | .not _
      | .function .. | .membership .. => isFalse (by simp)
  | .not e, b =>
      match b with
      | .not e' =>
          match decEq e e' with
          | isTrue h => isTrue (by rw [h])
          | isFalse h => isFalse (by simp [h])
      | .member .. | .column .. | .literal _ | .parameter _ | .compare .. | .and .. | .or ..
      | .function .. | .membership .. => isFalse (by simp)
  | .function f args, b =>
      match b with
      | .function f' args' =>
          match decEqList args args' with
          | isTrue h => if hf : f = f' then isTrue (by rw [h, hf]) else isFalse (by simp [hf])
          | isFalse h => isFalse (by simp [h])
      | .member .. | .column .. | .literal _ | .parameter _ | .compare .. | .and .. | .or ..
      | .not _ | .membership .. => isFalse (by simp)
  | .membership e p m, b =>
      match b with
      | .membership e' p' m' =>
          match decEq e e' with
          | isTrue h =>
              if hp : p = p' ∧ m = m' then isTrue (by rw [h, hp.1, hp.2])
              else isFalse (by simpa [h] using hp)
          | isFalse h => isFalse (by simp [h])
      | .member .. | .column .. | .literal _ | .parameter _ | .compare .. | .and .. | .or ..
      | .not _ | .function .. => isFalse (by simp)

/-- Equality of argument lists. -/
def decEqList : (as bs : List RelExpr) → Decidable (as = bs)
  | [], [] => isTrue rfl
  | [], _ :: _ => isFalse (by simp)
  | _ :: _, [] => isFalse (by simp)
  | a :: as, b :: bs =>
      match decEq a b, decEqList as bs with
      | isTrue h, isTrue hs => isTrue (by rw [h, hs])
      | isFalse h, _ => isFalse (by simp [h])
      | _, isFalse hs => isFalse (by simp [hs])

end

instance : DecidableEq RelExpr :=
  decEq

mutual

/-- The membership tests of an expression, outer ones before those in their operands. -/
def memberships : RelExpr → List Membership
  | .membership operand valueSet search =>
      ⟨operand, valueSet, search⟩ :: memberships operand
  | .compare left _ right => memberships left ++ memberships right
  | .and left right => memberships left ++ memberships right
  | .or left right => memberships left ++ memberships right
  | .not operand => memberships operand
  | .function _ args => membershipsList args
  | .member .. | .column .. | .literal _ | .parameter _ => []

/-- The membership tests of arguments. -/
def membershipsList : List RelExpr → List Membership
  | [] => []
  | arg :: args => memberships arg ++ membershipsList args

end

end RelExpr

deriving instance DecidableEq for Membership

end FullTextQuery
