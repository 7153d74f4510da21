import Mathlib.Data.List.TakeWhile

namespace FullTextQuery.Text

/-!
# Runs of characters

A run of characters of one kind ends where a character of another kind follows
or where the text ends.
-/

variable {α : Type} {kind : α → Bool} {run rest : List α}

/-- Whether no character of a kind is at the front. -/
def Stops
    (kind : α → Bool)
    (rest : List α) :
    Prop :=
  ∀ c ∈ rest.head?, kind c = false

@[simp] theorem stops_nil :
    Stops kind [] := by
  simp [Stops]

@[simp] theorem stops_cons
    {c : α} :
    Stops kind (c :: rest) ↔ kind c = false := by
  simp [Stops]

/-- Nothing begins with one character if there is no rest behind it. -/
theorem stops_beq_iff
    [BEq α]
    [LawfulBEq α]
    {c : α} :
    Stops (· == c) rest ↔ ∀ others, rest ≠ c :: others := by
  cases rest <;> simp

/-- What is left without the run at the front does not begin with its kind. -/
theorem stops_dropWhile
    (cs : List α) :
    Stops kind (cs.dropWhile kind) := by
  intro c member
  have front := List.head?_dropWhile_not kind cs
  rw [Option.mem_def.mp member] at front
  exact front

/-- A run takes nothing from what does not begin with its kind. -/
theorem takeWhile_of_stops
    (stops : Stops kind rest) :
    rest.takeWhile kind = [] := by
  cases rest with
  | nil => rfl
  | cons c others => simp [stops_cons.mp stops]

theorem dropWhile_of_stops
    (stops : Stops kind rest) :
    rest.dropWhile kind = rest := by
  cases rest with
  | nil => rfl
  | cons c others => simp [stops_cons.mp stops]

/-- A run in front of something else is taken as a whole. -/
theorem takeWhile_run
    (all : ∀ c ∈ run, kind c = true)
    (stops : Stops kind rest) :
    (run ++ rest).takeWhile kind = run := by
  rw [List.takeWhile_append_of_pos all, takeWhile_of_stops stops, List.append_nil]

/-- What is left behind a run is what follows it. -/
theorem dropWhile_run
    (all : ∀ c ∈ run, kind c = true)
    (stops : Stops kind rest) :
    (run ++ rest).dropWhile kind = rest := by
  rw [List.dropWhile_append_of_pos all, dropWhile_of_stops stops]

end FullTextQuery.Text
