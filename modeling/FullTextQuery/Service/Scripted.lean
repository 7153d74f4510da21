import FullTextQuery.Service.Basic

namespace FullTextQuery

/-!
# Prepared answers

A search service that answers from a list, for trying out queries without a
real service.
-/

/-- The answers that are left, the next one first. -/
abbrev AnswerScript : Type :=
  List (Except Error (List String))

namespace AnswerScript

/--
The next answer and the answers left; the last one stays, and without answers there are
no keys.
-/
def next : AnswerScript → Except Error (List String) × AnswerScript
  | [] => (.ok [], [])
  | [last] => (last, [last])
  | first :: second :: rest => (first, second :: rest)

/-- The search service that gives the answers in turn, whatever it is asked. -/
def service : SearchService AnswerScript where
  search _ _ answers := answers.next

end AnswerScript

end FullTextQuery
