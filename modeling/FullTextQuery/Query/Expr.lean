import FullTextQuery.Value

namespace FullTextQuery

/-!
# Expressions of the query language

Filters, projections, join conditions and sort keys are expressions over the
item variables of a query.  A call of `search` on an item variable and a text asks
for a full-text search; `Expr.searchCall?` recognises it by its exact shape.
-/

/-- A comparison of two values. -/
inductive Comparison where
  | eq
  | notEq
  | lt
  | ltEq
  | gt
  | gtEq
  | like
  deriving Repr, DecidableEq

namespace Comparison

/-- The operator in relational text; queries are displayed with the same operators. -/
def symbol : Comparison → String
  | .eq => "="
  | .notEq => "<>"
  | .lt => "<"
  | .ltEq => "<="
  | .gt => ">"
  | .gtEq => ">="
  | .like => "LIKE"

end Comparison

/-- An expression over the item variables of a query. -/
inductive Expr where
  | item (name : String)
  | member (item property : String)
  | literal (value : Value)
  | parameter (name : String)
  | compare (left : Expr) (op : Comparison) (right : Expr)
  | and (left right : Expr)
  | or (left right : Expr)
  | not (operand : Expr)
  | call (function : String) (args : List Expr)
  deriving Repr, Inhabited

namespace Expr

mutual

/-- Equality of expressions is decided node by node. -/
def decEq : (a b : Expr) → Decidable (a = b)
  | .item a, b =>
      match b with
      | .item b => if h : a = b then isTrue (by rw [h]) else isFalse (by simpa using h)
      | .member .. | .literal _ | .parameter _ | .compare .. | .and .. | .or .. | .not _
      | .call .. => isFalse (by simp)
  | .member a p, b =>
      match b with
      | .member b q =>
          if h : a = b ∧ p = q then isTrue (by rw [h.1, h.2]) else isFalse (by simpa using h)
      | .item _ | .literal _ | .parameter _ | .compare .. | .and .. | .or .. | .not _
      | .call .. => isFalse (by simp)
  | .literal a, b =>
      match b with
      | .literal b => if h : a = b then isTrue (by rw [h]) else isFalse (by simpa using h)
      | .item _ | .member .. | .parameter _ | .compare .. | .and .. | .or .. | .not _
      | .call .. => isFalse (by simp)
  | .parameter a, b =>
      match b with
      | .parameter b => if h : a = b then isTrue (by rw [h]) else isFalse (by simpa using h)
      | .item _ | .member .. | .literal _ | .compare .. | .and .. | .or .. | .not _
      | .call .. => isFalse (by simp)
  | .compare l o r, b =>
      match b with
      | .compare l' o' r' =>
          match decEq l l', decEq r r' with
          | isTrue hl, isTrue hr =>
              if h : o = o' then isTrue (by rw [hl, hr, h]) else isFalse (by simp [h])
          | isFalse hl, _ => isFalse (by simp [hl])
          | _, isFalse hr => isFalse (by simp [hr])
      | .item _ | .member .. | .literal _ | .parameter _ | .and .. | .or .. | .not _
      | .call .. => isFalse (by simp)
  | .and l r, b =>
      match b with
      | .and l' r' =>
          match decEq l l', decEq r r' with
          | isTrue hl, isTrue hr => isTrue (by rw [hl, hr])
          | isFalse hl, _ => isFalse (by simp [hl])
          | _, isFalse hr => isFalse (by simp [hr])
      | .item _ | .member .. | .literal _ | .parameter _ | .compare .. | .or .. | .not _
      | .call .. => isFalse (by simp)
  | .or l r, b =>
      match b with
      | .or l' r' =>
          match decEq l l', decEq r r' with
          | isTrue hl, isTrue hr => isTrue (by rw [hl, hr])
          | isFalse hl, _ => isFalse (by simp [hl])
          | _, isFalse hr => isFalse (by simp [hr])
      | .item _ | .member .. | .literal _ | .parameter _ | .compare .. | .and .. | .not _
      | .call .. => isFalse (by simp)
  | .not e, b =>
      match b with
      | .not e' =>
          match decEq e e' with
          | isTrue h => isTrue (by rw [h])
          | isFalse h => isFalse (by simp [h])
      | .item _ | .member .. | .literal _ | .parameter _ | .compare .. | .and .. | .or ..
      | .call .. => isFalse (by simp)
  | .call f args, b =>
      match b with
      | .call f' args' =>
          match decEqList args args' with
          | isTrue h => if hf : f = f' then isTrue (by rw [h, hf]) else isFalse (by simp [hf])
          | isFalse h => isFalse (by simp [h])
      | .item _ | .member .. | .literal _ | .parameter _ | .compare .. | .and .. | .or ..
      | .not _ => isFalse (by simp)

/-- Equality of argument lists. -/
def decEqList : (as bs : List Expr) → Decidable (as = bs)
  | [], [] => isTrue rfl
  | [], _ :: _ => isFalse (by simp)
  | _ :: _, [] => isFalse (by simp)
  | a :: as, b :: bs =>
      match decEq a b, decEqList as bs with
      | isTrue h, isTrue hs => isTrue (by rw [h, hs])
      | isFalse h, _ => isFalse (by simp [h])
      | _, isFalse hs => isFalse (by simp [hs])

end

instance : DecidableEq Expr :=
  decEq

/-- The name by which a query asks for a full-text search. -/
def searchFunction : String :=
  "search"

/-- What a search call looks for: a text, or one that the caller of a run supplies. -/
inductive SearchPhrase where
  | literal (text : String)
  | parameter (name : String)
  deriving Repr, DecidableEq

/-- The phrase that an argument stands for, if it can stand for one. -/
def searchPhrase? : Expr → Option SearchPhrase
  | .literal (.text s) => some (.literal s)
  | .parameter p => some (.parameter p)
  | _ => none

/-- The item variable and the phrase of an expression of the exact shape `search(item, phrase)`. -/
def searchCall? : Expr → Option (String × SearchPhrase)
  | .call function [.item name, phrase] =>
      if function = searchFunction then phrase.searchPhrase?.map (name, ·) else none
  | _ => none

/-- The search call that keeps the items which the service finds for a text. -/
def search
    (item : String)
    (text : String) :
    Expr :=
  .call searchFunction [.item item, .literal (.text text)]

/-- The search call whose text is supplied when the query is run. -/
def searchParameter
    (item : String)
    (parameter : String) :
    Expr :=
  .call searchFunction [.item item, .parameter parameter]

mutual

/-- Equality that compares reals as numbers. -/
def agrees : Expr → Expr → Bool
  | .item a, .item b => a == b
  | .member a p, .member b q => a == b && p == q
  | .literal a, .literal b => a.agrees b
  | .parameter a, .parameter b => a == b
  | .compare l o r, .compare l' o' r' => agrees l l' && o == o' && agrees r r'
  | .and l r, .and l' r' => agrees l l' && agrees r r'
  | .or l r, .or l' r' => agrees l l' && agrees r r'
  | .not e, .not e' => agrees e e'
  | .call f args, .call f' args' => f == f' && agreesList args args'
  | _, _ => false

/-- `agrees` on argument lists. -/
def agreesList : List Expr → List Expr → Bool
  | [], [] => true
  | a :: as, b :: bs => agrees a b && agreesList as bs
  | _, _ => false

end

end Expr

end FullTextQuery
