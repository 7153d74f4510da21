import FullTextQuery.Plan.Record
import FullTextQuery.Plan.RunContext
import FullTextQuery.Plan.Steps
import FullTextQuery.Service.Basic
import FullTextQuery.Store.Selection
import FullTextQuery.Value.Key

namespace FullTextQuery

/-!
# Runs

A run asks the search service first and connects to the store afterwards, so the
store is not touched when the service fails or a key cannot be used.  Then the
parameters are looked up in the order in which the statement lists them, the
statement runs, and every row becomes a record of the result columns.
-/

namespace RowStep

/-- What the context supplies for a parameter. -/
def binding
    (context : RunContext)
    (parameter : StatementParameter) :
    Except Error Store.Binding :=
  match parameter.supplier with
  | .caller => ((context.supplied parameter.name).mapError .run).map .single
  | .search => ((context.valueSet parameter.name).mapError .invariant).map .array

/-- What the context supplies for all parameters; the first one that is missing is reported. -/
def bindings
    (step : RowStep)
    (context : RunContext) :
    Except Error Store.Bindings :=
  step.parameters.foldlM
    (fun earlier parameter => (binding context parameter).map (earlier.insert parameter.name))
    NameMap.empty

/-- The value in a column: integers in a column of reals become reals. -/
def cellValue
    (kind? : Option ScalarKind)
    (cell : Store.Cell) :
    Value :=
  match kind?, cell.toValue with
  | some .real, .integer n => .real (Binary64.ofInt n.toInt)
  | _, value => value

/-- The named values of a row; `index` is the place of the first column. -/
def namedValues
    (index : Nat) :
    List ResultColumn → List Store.Cell → Except StoreError (List (String × Value))
  | [], _ => .ok []
  | _ :: _, [] => .error (.noSuchResultColumn index)
  | column :: columns, cell :: cells => do
      let others ← namedValues (index + 1) columns cells
      return (column.name, cellValue column.kind? cell) :: others

/-- The record of a row. -/
def toRecord
    (step : RowStep)
    (cells : List Store.Cell) :
    Except StoreError Record :=
  (namedValues 0 step.columns cells).map Record.mk

/-- Run the statement. -/
def run
    [NumeralReading]
    (step : RowStep)
    (store : Store)
    (context : RunContext) :
    Except Error (List Record) := do
  let bindings ← step.bindings context
  let rows ← (store.select step.sql bindings).mapError .store
  (rows.mapM step.toRecord).mapError .store

end RowStep

namespace SearchStep

/-- The text to search for. -/
def text
    (step : SearchStep)
    (context : RunContext) :
    Except RunError String :=
  match step.phrase with
  | .literal text => .ok text
  | .parameter name => do
      match ← context.supplied name with
      | .text text => return text
      | other => .error (.searchTextNotText name other)

/-- The context with the values of some keys. -/
def putKeys
    (step : SearchStep)
    (context : RunContext)
    (keys : List String) :
    Except SearchError RunContext := do
  let values ← keys.mapM fun key => Value.ofKey key step.keyKind
  return context.putSet step.parameter values

/--
Ask the search service and keep the values of its keys.  The service is not
asked if there is no text to ask for.
-/
def run
    (step : SearchStep)
    (service : SearchService σ)
    (context : RunContext)
    (world : σ) :
    Except Error RunContext × σ :=
  match step.text context with
  | .error cause => (.error (.run cause), world)
  | .ok text =>
      match service.search step.index text world with
      | (.error e, after) => (.error e, after)
      | (.ok keys, after) => ((step.putKeys context keys).mapError .search, after)

end SearchStep

/-- What a run leaves behind: its result, the context, and the world around it. -/
structure RunOutcome (σ : Type) where
  result : Except Error (List Record)
  context : RunContext
  world : σ

namespace Steps

variable [NumeralReading]

/-- Connect to the store and run the row step. -/
def runRows
    (steps : Steps)
    (connect : σ → Except Error Store × σ)
    (context : RunContext)
    (world : σ) :
    RunOutcome σ :=
  match connect world with
  | (.error e, after) => ⟨.error e, context, after⟩
  | (.ok store, after) => ⟨steps.rowStep.run store context, context, after⟩

/-- Run the steps once.  `connect` is called only when the search has succeeded. -/
def run
    (steps : Steps)
    (service : SearchService σ)
    (connect : σ → Except Error Store × σ)
    (context : RunContext)
    (world : σ) :
    RunOutcome σ :=
  match steps.search? with
  | none => steps.runRows connect context world
  | some search =>
      match search.run service context world with
      | (.error e, after) => ⟨.error e, context, after⟩
      | (.ok found, after) => steps.runRows connect found after

end Steps

end FullTextQuery
