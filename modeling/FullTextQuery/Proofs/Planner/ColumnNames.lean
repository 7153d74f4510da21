import FullTextQuery.Binary64.Nearest
import FullTextQuery.Proofs.Model.Built
import FullTextQuery.Proofs.Plan.NamedParameters
import FullTextQuery.Proofs.Planner.Plan

namespace FullTextQuery

/-!
# The names of result columns

A projected member goes by its property unless an earlier column does, and then by
its item and property; any other expression goes by its place.  Nobody looks
whether the name that is fallen back on is free.  If it always is, the columns have
different names, and every value of a record is found under the name of its column.
-/

namespace Record

/-- The names of the fields. -/
def names
    (record : Record) :
    List String :=
  record.fields.map (·.1)

/-- What is found under a name is the value of the first field of that name. -/
theorem get?_eq_getElem?_idxOf
    (record : Record)
    (name : String) :
    record.get? name = record.fields[record.names.idxOf name]?.map (·.2) := by
  obtain ⟨fields⟩ := record
  simp only [get?, names]
  induction fields with
  | nil => rfl
  | cons field fields inductionHypothesis =>
      obtain ⟨fieldName, value⟩ := field
      rw [List.lookup_cons, List.map_cons, List.idxOf_cons]
      by_cases same : fieldName = name
      · simp [same]
      · have notFound : (name == fieldName) = false := by simpa using Ne.symm same
        have notHere : (fieldName == name) = false := by simpa using same
        simp [notFound, notHere, inductionHypothesis]

/-- With different names, every value is found under the name of its field. -/
theorem get?_eq_some
    {record : Record}
    (distinct : record.names.Nodup)
    {field : String × Value}
    (isField : field ∈ record.fields) :
    record.get? field.1 = some field.2 := by
  obtain ⟨place, inside, rfl⟩ := List.getElem_of_mem isField
  have insideNames : place < record.names.length := by simpa [names] using inside
  have isName : record.fields[place].1 = record.names[place] := by simp [names]
  rw [get?_eq_getElem?_idxOf, isName, distinct.idxOf_getElem]
  simp [inside]

end Record

namespace Expr

/-- The name that the column of an expression falls back on, given the number of earlier ones. -/
def fallbackName
    (earlier : Nat) :
    Expr → String
  | .member source property => source ++ "_" ++ property
  | _ => "column" ++ Decimal.ofInt (earlier + 1)

/--
Whether an expression falls back: another column is named as it would be, or nothing
names it.
-/
def FallsBack
    (names : List String) :
    Expr → Prop
  | .member _ property => property ∈ names
  | _ => True

instance
    (names : List String)
    (e : Expr) :
    Decidable (e.FallsBack names) :=
  match e with
  | .member _ property => inferInstanceAs (Decidable (property ∈ names))
  | .item _ | .literal _ | .parameter _ | .compare .. | .and .. | .or .. | .not _ | .call .. =>
      inferInstanceAs (Decidable True)

/-- The name of the column of an expression behind columns of some names. -/
def columnName
    (names : List String) :
    Expr → String
  | .member source property =>
      if property ∈ names then fallbackName names.length (.member source property) else property
  | e => e.fallbackName names.length

/-- A column's name is taken only if it is the one that its expression falls back on. -/
theorem columnName_mem_iff
    {names : List String}
    {e : Expr} :
    e.columnName names ∈ names ↔ e.FallsBack names ∧ e.fallbackName names.length ∈ names := by
  cases e <;> simp only [columnName, FallsBack, true_and]
  split <;> simp_all

/-- The names of the columns of some expressions, behind columns of some names. -/
def columnNames
    (names : List String) :
    List Expr → List String
  | [] => []
  | e :: es => e.columnName names :: columnNames (names ++ [e.columnName names]) es

@[simp] theorem length_columnNames
    (names : List String)
    (es : List Expr) :
    (columnNames names es).length = es.length := by
  induction es generalizing names with
  | nil => rfl
  | cons e es inductionHypothesis => simp [columnNames, inductionHypothesis]

/--
Behind different names, the names of the columns are different from them and from each other
unless some expression falls back on the name of an earlier column.
-/
theorem nodup_append_columnNames
    {names : List String}
    (distinct : names.Nodup)
    (es : List Expr) :
    (names ++ columnNames names es).Nodup ↔
      ∀ place e, es[place]? = some e →
        e.FallsBack (names ++ (columnNames names es).take place) →
        e.fallbackName (names.length + place) ∉ names ++ (columnNames names es).take place := by
  induction es generalizing names with
  | nil => simpa [columnNames] using distinct
  | cons e es inductionHypothesis =>
      have shape : names ++ columnNames names (e :: es) =
          (names ++ [e.columnName names]) ++ columnNames (names ++ [e.columnName names]) es := by
        simp [columnNames]
      rw [shape]
      have step : (names ++ [e.columnName names]).Nodup ↔ e.columnName names ∉ names := by
        simp [List.nodup_append, distinct]
        grind
      by_cases isTaken : e.columnName names ∈ names
      · refine iff_of_false (fun nodup => step.mp nodup.of_append_left isTaken) fun allFree => ?_
        obtain ⟨fallsBack, fallbackTaken⟩ := columnName_mem_iff.mp isTaken
        exact allFree 0 e rfl (by simpa using fallsBack) (by simpa using fallbackTaken)
      · rw [inductionHypothesis (step.mpr isTaken)]
        constructor
        · intro allFree place other isOther
          cases place with
          | zero =>
              obtain rfl : e = other := by simpa using isOther
              intro fallsBack fallbackTaken
              exact isTaken (columnName_mem_iff.mpr
                ⟨by simpa using fallsBack, by simpa using fallbackTaken⟩)
          | succ place =>
              have isFree := allFree place other (by simpa using isOther)
              simpa [columnNames, Nat.add_assoc, Nat.add_comm 1] using isFree
        · intro allFree place other isOther
          have isFree := allFree (place + 1) other (by simpa using isOther)
          simpa [columnNames, Nat.add_assoc, Nat.add_comm 1] using isFree

end Expr

namespace Query

/--
Whether every projected expression that falls back on a second name, finds that name free: no
earlier column has it.
-/
def FallbacksAreFree
    (query : Query) :
    Prop :=
  ∀ place e, query.projection[place]? = some e →
    e.FallsBack ((Expr.columnNames [] query.projection).take place) →
    e.fallbackName place ∉ (Expr.columnNames [] query.projection).take place

end Query

namespace Planner

variable {model : Model} {query : Query} {plan : QueryPlan}

/-- A projected expression gets its name from the names of the columns before it. -/
theorem name_of_columnFor
    {scope : Scope}
    {earlier : List LoweredColumn}
    {e : Expr}
    {column : ResultColumn}
    (isColumn : columnFor scope earlier e = .ok column) :
    column.name = e.columnName (earlier.map (·.column.name)) := by
  cases e <;> simp only [columnFor, Except.bind_eq_ok, Except.ok.injEq] at isColumn
  case member source property =>
    obtain ⟨found, _, named⟩ := isColumn
    obtain rfl := Except.ok.inj named
    have isTaken : earlier.any (·.column.name == property) =
        decide (property ∈ earlier.map (·.column.name)) := by
      rw [Bool.eq_iff_iff]
      simp
    simp [Expr.columnName, Expr.fallbackName, isTaken]
  all_goals
    subst isColumn
    simp [Expr.columnName, Expr.fallbackName]

/-- Projected expressions get their names one after another. -/
theorem names_of_columnsLowered
    {scope : Scope}
    {earlier columns : List LoweredColumn}
    {es : List Expr}
    (lowered : ColumnsLowered scope earlier es columns) :
    columns.map (·.column.name) =
      earlier.map (·.column.name) ++ Expr.columnNames (earlier.map (·.column.name)) es := by
  induction es generalizing earlier with
  | nil =>
      obtain rfl : columns = earlier := lowered
      simp [Expr.columnNames]
  | cons e es inductionHypothesis =>
      obtain ⟨column, expr, isColumn, _, restLowered⟩ := lowered
      rw [inductionHypothesis restLowered]
      simp [Expr.columnNames, name_of_columnFor isColumn]

/-- The properties of an entity that passes its check have different names. -/
theorem nodup_properties_of_check
    {entity : Entity}
    (passed : entity.check = .ok ()) :
    (entity.properties.map (·.name)).Nodup := by
  obtain ⟨-, -, properties, -⟩ := Entity.check_eq_ok.mp passed
  refine Entity.nodup_properties_iff.mpr fun property isProperty => ?_
  exact (Entity.checkProperty_eq_ok.mp (properties property isProperty)).2.2

/-- The columns of an explicit projection are named from the query alone. -/
theorem names_of_projectionDrafted
    {outputs : List OutputColumn}
    {columns : List ResultColumn}
    (explicit : query.projection ≠ [])
    (drafted : ProjectionDrafted model query outputs columns) :
    columns.map (·.name) = Expr.columnNames [] query.projection := by
  obtain ⟨lowered, projection, _, rfl⟩ := drafted
  unfold ProjectionLowered at projection
  split at projection
  · contradiction
  · simpa [Function.comp_def] using names_of_columnsLowered projection

/-- The columns that stand for all properties of an entity have different names. -/
theorem nodup_of_projectionDrafted
    (built : model.Built)
    (known : ∀ source ∈ query.sources, (model.entity? source.entity).isSome)
    {outputs : List OutputColumn}
    {columns : List ResultColumn}
    (everything : query.projection = [])
    (drafted : ProjectionDrafted model query outputs columns) :
    (columns.map (·.name)).Nodup := by
  obtain ⟨lowered, projection, _, rfl⟩ := drafted
  rw [ProjectionLowered, everything] at projection
  obtain ⟨root, inScope, rfl⟩ := projection
  rw [Scope.get?_declared known, Option.map_eq_some_iff] at inScope
  obtain ⟨entity, isEntity, rfl⟩ := inScope
  obtain ⟨source, _, _, isKnown⟩ := Query.exists_source_of_entityOf? isEntity
  simpa [everyProperty, Function.comp_def] using
    nodup_properties_of_check (built.checked isKnown).1

end Planner

namespace RowStep

/-- The fields of the records of a run are named as the columns. -/
theorem names_of_run
    [NumeralReading]
    {step : RowStep}
    {store : Store}
    {context : RunContext}
    {records : List Record}
    (returned : step.run store context = .ok records) :
    ∀ record ∈ records, record.names = step.columns.map (·.name) := by
  have named : ∀ (index : Nat) (columns : List ResultColumn) (cells : List Store.Cell)
      (fields : List (String × Value)), namedValues index columns cells = .ok fields →
      fields.map (·.1) = columns.map (·.name) := by
    intro index columns
    induction columns generalizing index with
    | nil =>
        intro cells fields isNamed
        obtain rfl := Except.ok.inj isNamed
        rfl
    | cons column columns inductionHypothesis =>
        intro cells fields isNamed
        cases cells with
        | nil => cases isNamed
        | cons cell cells =>
            obtain ⟨others, areNamed, shape⟩ := Except.bind_eq_ok.mp isNamed
            obtain rfl := Except.ok.inj shape
            simp [inductionHypothesis _ _ _ areNamed]
  intro record isRecord
  obtain ⟨_, _, rest⟩ := Except.bind_eq_ok.mp returned
  obtain ⟨_, _, shaped⟩ := Except.bind_eq_ok.mp rest
  obtain ⟨cells, _, isShaped⟩ := List.exists_of_forall₂_right
    (Except.mapM_eq_ok.mp (Except.mapError_eq_ok.mp shaped)) isRecord
  obtain ⟨fields, areNamed, rfl⟩ := Except.map_eq_ok.mp isShaped
  exact named 0 step.columns cells fields areNamed

end RowStep

namespace Database

/-- A run returns what its row step returns. -/
theorem exists_rowStep_run
    [NumeralReading]
    {database : Database σ}
    {plan : QueryPlan}
    {parameters : Parameters}
    {records : List Record}
    (returned : (database.run plan parameters).1 = .ok records) :
    ∃ context, plan.steps.rowStep.run database.store context = .ok records := by
  rw [result_run] at returned
  cases isSearch : plan.steps.search? with
  | none => exact ⟨_, by simpa [isSearch] using returned⟩
  | some search =>
      simp only [isSearch] at returned
      obtain ⟨_, _, rest⟩ := Except.bind_eq_ok.mp returned
      obtain ⟨found, _, ran⟩ := Except.bind_eq_ok.mp rest
      exact ⟨found, ran⟩

end Database

namespace QueryPlan

/-- How the names of a plan's columns come about, and what is found under them. -/
structure NamesColumns
    [NumeralReading]
    (query : Query)
    (plan : QueryPlan) :
    Prop where
  explicit : query.projection ≠ [] →
    plan.columns.map (·.name) = Expr.columnNames [] query.projection
  distinct : (plan.columns.map (·.name)).Nodup ↔ query.FallbacksAreFree
  /-- The fields of every record are named as the columns. -/
  named : ∀ {σ : Type} (database : Database σ) (parameters : Parameters) (records : List Record),
    (database.run plan parameters).1 = .ok records →
    ∀ record ∈ records, record.names = plan.columns.map (·.name)
  /-- With different names every value is found. -/
  reachable : query.FallbacksAreFree →
    ∀ record : Record, record.names = plan.columns.map (·.name) →
      ∀ field ∈ record.fields, record.get? field.1 = some field.2
  /-- Otherwise there is a column of which the value of an earlier column is found. -/
  hidden : ¬query.FallbacksAreFree →
    ∃ earlier place : Nat, earlier < place ∧
      ∀ record : Record, record.names = plan.columns.map (·.name) →
        ∃ name shown value, record.fields[earlier]? = some (name, shown) ∧
          record.fields[place]? = some (name, value) ∧ record.get? name = some shown

end QueryPlan

namespace Record

/-- Where two fields have a name, there is one that is not found under it, but an earlier one. -/
theorem exists_hidden
    {names : List String}
    (repeated : ¬names.Nodup) :
    ∃ earlier place : Nat, earlier < place ∧
      ∀ record : Record, record.names = names →
        ∃ name shown value, record.fields[earlier]? = some (name, shown) ∧
          record.fields[place]? = some (name, value) ∧ record.get? name = some shown := by
  obtain ⟨first, place, before, _, inside, same⟩ : ∃ (first place : Nat) (_ : first < place)
      (_ : first < names.length) (_ : place < names.length), names[first] = names[place] := by
    simpa [List.Nodup, List.pairwise_iff_getElem] using repeated
  have isEarlier : names.idxOf names[place] < place := by
    rw [← List.mem_take_iff_idxOf_lt (by simp), List.mem_take_iff_getElem]
    exact ⟨first, by omega, same⟩
  refine ⟨names.idxOf names[place], place, isEarlier, ?_⟩
  rintro record rfl
  have shape : ∀ place (inside : place < record.names.length),
      ∃ value, record.fields[place]? = some (record.names[place], value) := by
    intro place inside
    have inFields : place < record.fields.length := by simpa [Record.names] using inside
    exact ⟨record.fields[place].2, by simp [Record.names, inFields]⟩
  obtain ⟨value, isThere⟩ := shape place inside
  obtain ⟨shown, isShown⟩ := shape _ (Nat.lt_trans isEarlier inside)
  rw [List.getElem_idxOf] at isShown
  refine ⟨record.names[place], shown, value, isShown, isThere, ?_⟩
  rw [get?_eq_getElem?_idxOf, isShown]
  rfl

end Record

namespace Planner

/--
The columns of a plan have different names exactly if every projected expression that
falls back on a second name finds it free.  Then every value of a record is found under the
name of its column, and otherwise one is hidden behind the value of an earlier column.
-/
theorem namesColumns_of_plan
    [NumeralReading]
    {model : Model}
    {query : Query}
    {plan : QueryPlan}
    (built : model.Built)
    (planned : (searching model).plan query = .ok plan) :
    plan.NamesColumns query := by
  obtain ⟨draft, parameters, drafted, _, rfl⟩ := plan_eq_ok.mp planned
  have columns :
      (⟨steps draft parameters, draft.searches⟩ : QueryPlan).columns = draft.columns := by
    rw [QueryPlan.columns, rowStep_steps]
    rfl
  have distinct : (draft.columns.map (·.name)).Nodup ↔ query.FallbacksAreFree := by
    by_cases everything : query.projection = []
    · refine iff_of_true
        (nodup_of_projectionDrafted built drafted.known everything drafted.projection) ?_
      simp [Query.FallbacksAreFree, everything]
    · rw [names_of_projectionDrafted everything drafted.projection]
      simpa [Query.FallbacksAreFree] using
        Expr.nodup_append_columnNames List.nodup_nil query.projection
  exact {
    explicit := fun explicit => by
      rw [columns, names_of_projectionDrafted explicit drafted.projection]
    distinct := by rw [columns, distinct]
    named := by
      intro σ database parameters records returned
      obtain ⟨context, returned⟩ := Database.exists_rowStep_run returned
      exact RowStep.names_of_run returned
    reachable := by
      intro areFree record named field isField
      refine Record.get?_eq_some ?_ isField
      rw [named, columns]
      exact distinct.mpr areFree
    hidden := by
      intro notFree
      rw [columns]
      exact Record.exists_hidden (distinct.not.mpr notFree) }

/-- The columns of members of two items that a query joins. -/
theorem namesColumns_ordersOfFound :
    ∃ plan, (searching .shop).plan .ordersOfFound = .ok plan ∧
      plan.NamesColumns .ordersOfFound := by
  have isPlanned : ((searching .shop).plan .ordersOfFound).toOption.isSome := by
    decide +kernel
  obtain ⟨plan, planned⟩ := Except.exists_eq_ok_iff.mpr isPlanned
  exact ⟨plan, planned, namesColumns_of_plan Model.built_shop planned⟩

end Planner

/-- The name of every customer, three times. -/
def Query.nameThrice : Query where
  source := ⟨"c", "Customer"⟩
  projection := [.member "c" "Name", .member "c" "Name", .member "c" "Name"]

namespace Planner

/-- The second and the third column of a member that is projected three times have one name. -/
theorem exists_plan_with_same_names :
    ∃ plan, (searching .shop).plan .nameThrice = .ok plan ∧
      plan.columns.map (·.name) = ["Name", "c_Name", "c_Name"] := by
  have isPlanned : ((searching .shop).plan .nameThrice).toOption.any
      (fun plan => plan.columns.map (·.name) = ["Name", "c_Name", "c_Name"]) := by
    decide +kernel
  cases planned : (searching .shop).plan .nameThrice with
  | error cause => simp [planned, Except.toOption] at isPlanned
  | ok plan => exact ⟨plan, rfl, by simpa [planned] using isPlanned⟩

end Planner

end FullTextQuery
