import FullTextQuery.Database.Basic

namespace FullTextQuery

/-!
# Cursors

A cursor hands out the rows of a plan one by one.  Nothing happens before the first
row is asked for; then the plan runs, once.  A failure is handed out once, and
nothing follows it.
-/

/-- How far a cursor has come. -/
inductive Progress where
  | waiting (parameters : Parameters)
  | handingOut (rows : List Record)
  | failed
  deriving Repr, DecidableEq

/-- A single pass over the rows of a plan. -/
structure Cursor where
  plan : QueryPlan
  progress : Progress
  deriving Repr, DecidableEq

/-- What asking for a row gives: a row or a failure if there is one, and what comes after. -/
structure Pull (σ : Type) where
  item? : Option (Except Error Record)
  cursor : Cursor
  database : Database σ

namespace Cursor

/-- A cursor before its first row. -/
def start
    (plan : QueryPlan)
    (parameters : Parameters) :
    Cursor :=
  ⟨plan, .waiting parameters⟩

/-- Hand out the first of some rows. -/
def handOut
    (plan : QueryPlan)
    (database : Database σ) :
    List Record → Pull σ
  | [] => ⟨none, ⟨plan, .handingOut []⟩, database⟩
  | row :: rows => ⟨some (.ok row), ⟨plan, .handingOut rows⟩, database⟩

/-- Ask for the next row. -/
def next
    [NumeralReading]
    (cursor : Cursor)
    (database : Database σ) :
    Pull σ :=
  match cursor.progress with
  | .handingOut rows => handOut cursor.plan database rows
  | .failed => ⟨none, cursor, database⟩
  | .waiting parameters =>
      match database.run cursor.plan parameters with
      | (.error e, after) => ⟨some (.error e), { cursor with progress := .failed }, after⟩
      | (.ok rows, after) => handOut cursor.plan after rows

end Cursor

namespace Database

/--
Everything that a run of a plan hands out, each row read into another type.  A
row that cannot be read is a failure in its place, and the rows behind it follow.
-/
def readRows
    [NumeralReading]
    (database : Database σ)
    (read : Record → Except Error α)
    (plan : QueryPlan)
    (parameters : Parameters) :
    List (Except Error α) × Database σ :=
  match database.run plan parameters with
  | (.error e, after) => ([.error e], after)
  | (.ok rows, after) => (rows.map read, after)

end Database

end FullTextQuery
