import FullTextQuery.NameMap
import FullTextQuery.Sql.Term
import FullTextQuery.Store.Function
import FullTextQuery.Store.Table

namespace FullTextQuery.Store

/-!
# Scalar expressions over joined rows

A term of a statement becomes a scalar expression when its names are found
among the joined tables and its parameters are replaced by what is bound to
them.  A scalar has a value on every joined row, and a condition holds or does
not: there null counts as given, and the right side of `AND` and `OR` is looked
at only where the left side leaves the matter open.
-/

/-- What is bound to a parameter: one value, or a value set. -/
inductive Binding where
  | single (value : Value)
  | array (values : List Value)
  deriving Repr, DecidableEq

/-- What is bound to the parameters of a statement, by name. -/
abbrev Bindings : Type :=
  NameMap Binding

namespace Bindings

/-- The cell that a parameter stands for; what is no single value stands for null. -/
def cell
    (bindings : Bindings)
    (name : String) :
    Cell :=
  match bindings.get? name with
  | some (.single value) => Cell.ofValue value
  | _ => .null

/-- The cells of a value set; what is no value set is empty. -/
def cells
    (bindings : Bindings)
    (name : String) :
    List Cell :=
  match bindings.get? name with
  | some (.array values) => values.map Cell.ofValue
  | _ => []

end Bindings

/-- A joined table under its alias. -/
structure BoundTable where
  tableAlias : String
  table : Table
  deriving Repr, DecidableEq

/-- A row of one table: its number, counted from one, and its cells. -/
structure NumberedRow where
  number : Nat
  cells : List Cell
  deriving Repr, DecidableEq

/-- A row of every joined table, in the order of the tables. -/
abbrev JoinedRow : Type :=
  List NumberedRow

/-- A column of a joined table, by place; `none` is the number of the row. -/
structure ColumnRef where
  table : Nat
  column? : Option Nat
  affinity : Affinity
  deriving Repr, DecidableEq

namespace ColumnRef

/-- The cell of a column in a joined row. -/
def cell
    (ref : ColumnRef)
    (row : JoinedRow) :
    Cell :=
  match row[ref.table]? with
  | none => .null
  | some source =>
      match ref.column? with
      | none => .integer (Int64.ofNat source.number)
      | some column => source.cells[column]?.getD .null

end ColumnRef

/-- The names under which a row has its number, unless a column is named so. -/
def rowNumberNames : List String :=
  ["rowid", "oid", "_rowid_"]

/-- The columns of a table with a name; there is at most one. -/
def columnsNamed
    (place : Nat)
    (source : BoundTable)
    (name : String) :
    List ColumnRef :=
  (source.table.columns.zipIdx.filter fun entry => sameName entry.1.name name).map fun entry =>
    ⟨place, some entry.2, entry.1.affinity⟩

/--
The column with a name among some tables, each with its place.  A name that no
column has may still be a name for the number of the row, if there is just one
table to look in.
-/
def findColumn
    (sources : List (BoundTable × Nat))
    (name : String) :
    Except StoreError ColumnRef :=
  match sources.flatMap fun entry => columnsNamed entry.2 entry.1 name with
  | [ref] => .ok ref
  | _ :: _ :: _ => .error (.ambiguousColumn name)
  | [] =>
      if rowNumberNames.any (sameName name) then
        match sources with
        | [(_, place)] => .ok ⟨place, none, .integer⟩
        | [] => .error (.noSuchColumn name)
        | _ => .error (.ambiguousColumn name)
      else
        .error (.noSuchColumn name)

/-- An expression over joined rows. -/
inductive Scalar where
  | column (ref : ColumnRef)
  | constant (cell : Cell)
  | compare (left : Scalar) (op : Sql.Operator) (right : Scalar)
  | and (left right : Scalar)
  | or (left right : Scalar)
  | not (operand : Scalar)
  | apply (function : ScalarFunction) (arg : Scalar)
  | inSet (operand : Scalar) (cells : List Cell)
  deriving Repr, DecidableEq

namespace Scalar

/-- The affinity of a column; other expressions have none. -/
def affinity? : Scalar → Option Affinity
  | .column ref => some ref.affinity
  | .constant _ | .compare .. | .and .. | .or .. | .not _ | .apply .. | .inSet .. => none

/-- Whether an expression reads no table. -/
def isConstant : Scalar → Bool
  | .column _ => false
  | .constant _ => true
  | .compare left _ right => left.isConstant && right.isConstant
  | .and left right => left.isConstant && right.isConstant
  | .or left right => left.isConstant && right.isConstant
  | .not operand => operand.isConstant
  | .apply _ arg => arg.isConstant
  | .inSet operand _ => operand.isConstant

/-- The truth value of an order between two cells that are not null. -/
def holdsFor
    (op : Sql.Operator)
    (order : Ordering) :
    Bool :=
  match op with
  | .equal | .same => order == .eq
  | .notEqual | .notSame => order != .eq
  | .less => order == .lt
  | .lessEqual => order != .gt
  | .greater => order == .gt
  | .greaterEqual => order != .lt
  | .like => false

/-- Whether a text is like a pattern, both as cells. -/
def likeCells
    (text pattern : Cell) :
    Except StoreError (Option Bool) :=
  match text.text?, pattern.text? with
  | some text, some pattern =>
      if maxPatternBytes < pattern.utf8ByteSize then .error .patternTooLong
      else .ok (some (isLike pattern text))
  | _, _ => .ok none
where
  /-- The longest pattern. -/
  maxPatternBytes : Nat := 50000

/-- The truth value of a comparison of two cells, which already have been converted. -/
def compareCells
    (left : Cell)
    (op : Sql.Operator)
    (right : Cell) :
    Option Bool :=
  match op with
  | .same | .notSame => some (holdsFor op (left.compare right))
  | _ =>
      if left = .null ∨ right = .null then none else some (holdsFor op (left.compare right))

/-- The truth value of a membership test: of no element it is false, whatever the operand. -/
def memberOf
    (operand : Cell)
    (elements : List Cell) :
    Option Bool :=
  if elements.isEmpty then
    some false
  else if operand = .null then
    none
  else if elements.any fun element => operand.equal? element = some true then
    some true
  else if elements.contains .null then
    none
  else
    some false

/-- Both truth values, or either. -/
def bothTrue : Option Bool → Option Bool → Option Bool
  | some false, _ => some false
  | _, some false => some false
  | some true, some true => some true
  | _, _ => none

/-- One truth value or the other. -/
def anyTrue : Option Bool → Option Bool → Option Bool
  | some true, _ => some true
  | _, some true => some true
  | some false, some false => some false
  | _, _ => none

/-- The value of an expression on a joined row. -/
def value
    [NumeralReading]
    (row : JoinedRow) :
    Scalar → Except StoreError Cell
  | .column ref => .ok (ref.cell row)
  | .constant cell => .ok cell
  | .compare left op right => do
      let a ← left.value row
      let b ← right.value row
      if op = .like then
        return Cell.ofTruth (← likeCells a b)
      else
        let conversion := Conversion.ofOperands left.affinity? right.affinity?
        return Cell.ofTruth (compareCells (conversion.convert a) op (conversion.convert b))
  | .and left right => do
      let a ← left.value row
      let b ← right.value row
      return Cell.ofTruth (bothTrue a.truth? b.truth?)
  | .or left right => do
      let a ← left.value row
      let b ← right.value row
      return Cell.ofTruth (anyTrue a.truth? b.truth?)
  | .not operand => do
      let a ← operand.value row
      return Cell.ofTruth (a.truth?.map Bool.not)
  | .apply function arg => do
      let a ← arg.value row
      function.apply a
  | .inSet operand cells => do
      let a ← operand.value row
      let conversion := Conversion.ofOperands operand.affinity? (some .none)
      return Cell.ofTruth (memberOf (conversion.convert a) (cells.map conversion.convert))

/-- Whether a condition holds on a joined row, where null counts as `ifNull`. -/
def holds
    [NumeralReading]
    (row : JoinedRow) :
    Scalar → (ifNull : Bool) → Except StoreError Bool
  | .and left right, ifNull => do
      if ← left.holds row ifNull then right.holds row ifNull else return false
  | .or left right, ifNull => do
      if ← left.holds row ifNull then return true else right.holds row ifNull
  | .not operand, ifNull => do
      return !(← operand.holds row !ifNull)
  | .column ref, ifNull => return (ref.cell row).truth?.getD ifNull
  | .constant cell, ifNull => return cell.truth?.getD ifNull
  | .compare left op right, ifNull => do
      return (← (Scalar.compare left op right).value row).truth?.getD ifNull
  | .apply function arg, ifNull => do
      return (← (Scalar.apply function arg).value row).truth?.getD ifNull
  | .inSet operand cells, ifNull => do
      return (← (Scalar.inSet operand cells).value row).truth?.getD ifNull

/-- The conditions that a conjunction is made of, in their order. -/
def conjuncts : Scalar → List Scalar
  | .and left right => left.conjuncts ++ right.conjuncts
  | .column ref => [.column ref]
  | .constant cell => [.constant cell]
  | .compare left op right => [.compare left op right]
  | .or left right => [.or left right]
  | .not operand => [.not operand]
  | .apply function arg => [.apply function arg]
  | .inSet operand cells => [.inSet operand cells]

mutual

/--
Find the names of a term and replace its parameters.  In a conjunction that is
false in any case no name is looked for.
-/
def ofTerm
    (sources : List BoundTable)
    (bindings : Bindings) :
    Sql.Term → Except StoreError Scalar
  | .name name => do
      return .column (← findColumn sources.zipIdx name)
  | .column tableAlias name => do
      let named := sources.zipIdx.filter fun entry => sameName entry.1.tableAlias tableAlias
      return .column (← findColumn named name)
  | .literal value => .ok (.constant (Cell.ofValue value))
  | .parameter name => .ok (.constant (bindings.cell name))
  | .compare left op right => do
      let a ← ofTerm sources bindings left
      let b ← ofTerm sources bindings right
      return .compare a op b
  | .and left right =>
      if (Sql.Term.and left right).isNever then
        .ok (.constant (.integer 0))
      else do
        let a ← ofTerm sources bindings left
        let b ← ofTerm sources bindings right
        return .and a b
  | .or left right => do
      let a ← ofTerm sources bindings left
      let b ← ofTerm sources bindings right
      return .or a b
  | .not operand => do
      return .not (← ofTerm sources bindings operand)
  | .call name args => do
      let args ← ofTerms sources bindings args
      match ScalarFunction.ofName? name, args with
      | none, _ => .error (.noSuchFunction name)
      | some function, [arg] => .ok (.apply function arg)
      | some _, _ => .error (.wrongArgumentCount name)
  | .inArray operand name => do
      return .inSet (← ofTerm sources bindings operand) (bindings.cells name)

/-- Find the names of several terms. -/
def ofTerms
    (sources : List BoundTable)
    (bindings : Bindings) :
    List Sql.Term → Except StoreError (List Scalar)
  | [] => .ok []
  | term :: terms => do
      let first ← ofTerm sources bindings term
      let others ← ofTerms sources bindings terms
      return first :: others

end

end Scalar

end FullTextQuery.Store
