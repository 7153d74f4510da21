import FullTextQuery.Proofs.Meaning.Columns
import FullTextQuery.Proofs.Sql.Regrouping

namespace FullTextQuery

/-!
# What statements evaluate

The term that the image of an expression is read as becomes a scalar whose cell
on every joined row is the cell of the expression.  The induction is on the
expression.  A conjunction that is false in any case is left out by the
resolution of names, and its cell is false indeed.
-/

namespace Expr

variable {model : Model} {query : Query} {image : RelExpr}

/-- Only a literal has the literal as its image. -/
theorem eq_literal_of_image?
    {e : Expr}
    {value : Value}
    (imaged : e.image? model query = some (.literal value)) :
    e = .literal value := by
  cases e with
  | literal other => simpa [image?] using imaged
  | item name => simp [image?] at imaged
  | member source property => simp [image?, Option.bind_eq_some_iff] at imaged
  | parameter name => simp [image?] at imaged
  | compare left op right => simp [image?_compare_eq_some] at imaged
  | and left right => simp [image?_and_eq_some] at imaged
  | or left right => simp [image?_or_eq_some] at imaged
  | not operand => simp [image?_not_eq_some] at imaged
  | call function args =>
      cases isSearch : (Expr.call function args).searchCall? with
      | some searched => simp [image?_search_eq_some isSearch] at imaged
      | none => simp [image?_call_eq_some isSearch] at imaged

/-- The operator of a comparison is read as the operator that the comparison means. -/
theorem operatorOf_image?
    {right : Expr}
    (op : Comparison)
    (imaged : right.image? model query = some image) :
    Sql.operatorOf op image = operator op right := by
  by_cases isNull : image = .literal .null
  · obtain rfl := isNull
    obtain rfl := eq_literal_of_image? imaged
    cases op <;> rfl
  · have notNull : right ≠ .literal .null := by
      rintro rfl
      exact isNull (Option.some.inj imaged).symm
    cases op <;> unfold Sql.operatorOf operator <;> split <;> simp_all

/-- Whether the image of an expression is read as a term, all of its comparisons as they are. -/
def ReadAs
    [NumeralReading]
    (model : Model)
    (query : Query)
    (e : Expr)
    (term : Sql.Term) :
    Prop :=
  ∃ image, e.image? model query = some image ∧ image.Grouped ∧ image.grouped? = some term

/-- Induction over an expression and the term that its image is read as. -/
theorem ReadAs.induction
    [NumeralReading]
    {motive : Expr → Sql.Term → Prop}
    (member : ∀ source property entity declared, query.entityOf? model source = some entity →
      entity.property? property = some declared →
      motive (.member source property) (.column source declared.column))
    (literal : ∀ value term, Sql.literalTerm? value = some term → motive (.literal value) term)
    (parameter : ∀ name, motive (.parameter name) (.parameter name))
    (compare : ∀ left op right l r, motive left l → motive right r →
      motive (.compare left op right) (.compare l (operator op right) r))
    (and : ∀ left right l r, motive left l → motive right r →
      motive (.and left right) (.and l r))
    (or : ∀ left right l r, motive left l → motive right r → motive (.or left right) (.or l r))
    (not : ∀ operand o, motive operand o → motive (.not operand) (.not o))
    (search : ∀ e source phrase entity key index, e.searchCall? = some (source, phrase) →
      query.entityOf? model source = some entity → entity.searchable? = some (key, index) →
      motive e (.inArray (.column source key.column) (Search.keyParameter 1)))
    (call : ∀ function args terms, (Expr.call function args).searchCall? = none →
      isKnownFunction function args.length → List.Forall₂ motive args terms →
      motive (.call function args) (.call (Sql.upperName function) terms))
    {e : Expr}
    {term : Sql.Term}
    (readAs : e.ReadAs model query term) :
    motive e term := by
  obtain ⟨image, imaged, grouped, reads⟩ := readAs
  induction e generalizing image term with
  | item name => cases imaged
  | member source property =>
      simp only [image?, Option.bind_eq_bind, Option.bind_eq_some_iff, Option.pure_def,
        Option.some.injEq] at imaged
      obtain ⟨entity, ranges, declared, has, rfl⟩ := imaged
      obtain rfl := Option.some.inj reads
      exact member source property entity declared ranges has
  | literal value =>
      obtain rfl : .literal value = image := Option.some.inj imaged
      exact literal value term (by simpa [RelExpr.grouped?, RelExpr.core?, RelExpr.tests,
        Sql.Term.withTests] using reads)
  | parameter name =>
      obtain rfl : .parameter name = image := Option.some.inj imaged
      obtain rfl := Option.some.inj reads
      exact parameter name
  | compare left op right leftMotive rightMotive =>
      obtain ⟨l, r, leftImaged, rightImaged, rfl⟩ := image?_compare_eq_some.mp imaged
      simp only [RelExpr.Grouped, RelExpr.every_compare, RelExpr.groupedPart_compare_iff]
        at grouped
      simp only [RelExpr.grouped?_compare grouped.1, operatorOf_image? op rightImaged,
        Option.bind_eq_bind, Option.bind_eq_some_iff, Option.pure_def, Option.some.injEq] at reads
      obtain ⟨leftTerm, leftReads, rightTerm, rightReads, rfl⟩ := reads
      exact compare left op right leftTerm rightTerm
        (leftMotive _ leftImaged grouped.2.1 leftReads)
        (rightMotive _ rightImaged grouped.2.2 rightReads)
  | and left right leftMotive rightMotive =>
      obtain ⟨l, r, leftImaged, rightImaged, rfl⟩ := image?_and_eq_some.mp imaged
      simp only [RelExpr.Grouped, RelExpr.every_and] at grouped
      simp only [RelExpr.grouped?_and, Option.bind_eq_bind, Option.bind_eq_some_iff,
        Option.pure_def, Option.some.injEq] at reads
      obtain ⟨leftTerm, leftReads, rightTerm, rightReads, rfl⟩ := reads
      exact and left right leftTerm rightTerm (leftMotive _ leftImaged grouped.2.1 leftReads)
        (rightMotive _ rightImaged grouped.2.2 rightReads)
  | or left right leftMotive rightMotive =>
      obtain ⟨l, r, leftImaged, rightImaged, rfl⟩ := image?_or_eq_some.mp imaged
      simp only [RelExpr.Grouped, RelExpr.every_or] at grouped
      simp only [RelExpr.grouped?_or, Option.bind_eq_bind, Option.bind_eq_some_iff,
        Option.pure_def, Option.some.injEq] at reads
      obtain ⟨leftTerm, leftReads, rightTerm, rightReads, rfl⟩ := reads
      exact or left right leftTerm rightTerm (leftMotive _ leftImaged grouped.2.1 leftReads)
        (rightMotive _ rightImaged grouped.2.2 rightReads)
  | not operand operandMotive =>
      obtain ⟨o, operandImaged, rfl⟩ := image?_not_eq_some.mp imaged
      simp only [RelExpr.Grouped, RelExpr.every_not] at grouped
      rw [RelExpr.grouped?_not] at reads
      obtain ⟨operandTerm, operandReads, rfl⟩ := Option.map_eq_some_iff.mp reads
      exact not operand operandTerm (operandMotive _ operandImaged grouped.2 operandReads)
  | call function args argMotive =>
      cases isSearch : (Expr.call function args).searchCall? with
      | some searched =>
          obtain ⟨test, isTest, rfl⟩ := (image?_search_eq_some isSearch).mp imaged
          simp only [keyTest?, Option.bind_eq_bind, Option.bind_eq_some_iff, Option.pure_def,
            Option.some.injEq] at isTest
          obtain ⟨entity, ranges, ⟨key, index⟩, searchable, rfl⟩ := isTest
          obtain rfl := Option.some.inj reads
          exact search _ searched.1 searched.2 entity key index isSearch ranges searchable
      | none =>
          obtain ⟨known, images, argsImaged, rfl⟩ := (image?_call_eq_some isSearch).mp imaged
          simp only [RelExpr.Grouped, RelExpr.every_function] at grouped
          rw [RelExpr.grouped?_function] at reads
          obtain ⟨terms, argsRead, rfl⟩ := Option.map_eq_some_iff.mp reads
          have follows : List.Forall₂
              (fun arg result => ∀ {term}, result.grouped? = some term → motive arg term)
              args images :=
            List.forall₂_imp_of_mem (fun arg isArg result isResult argImaged _ argReads =>
              argMotive arg isArg result argImaged (grouped.2 result isResult) argReads) argsImaged
          refine call function args terms isSearch known ?_
          refine (List.forall₂_comp.mp ⟨images, follows, List.mapM_eq_some.mp argsRead⟩).imp ?_
          rintro arg argTerm ⟨result, follow, argReads⟩
          exact follow argReads

end Expr

namespace Interpretation

open Store

/-- Whether the values found are of the kind of the key of an item. -/
def FoundFor
    (i : Interpretation)
    (item : String) :
    Prop :=
  ∀ entity ∈ i.query.entityOf? i.model item, ∀ keyed ∈ entity.searchable?,
    ∀ value ∈ i.found, value.kind? = some keyed.1.kind

/-- Whether what is bound to a parameter is what is supplied for it. -/
def Supplied
    (i : Interpretation)
    (bindings : Bindings)
    (parameter : StatementParameter) :
    Prop :=
  match parameter.supplier with
  | .caller => ∃ value, i.parameters.get? parameter.name = some value ∧
      bindings.get? parameter.name = some (.single value)
  | .search => bindings.get? parameter.name = some (.array i.found)

variable [NumeralReading]

/-- Whether what a part of an expression reads is bound, and a real is read back by the store. -/
structure Provided
    (i : Interpretation)
    (bindings : Bindings)
    (node : Expr) :
    Prop where
  supplied : ∀ parameter ∈ node.use?, i.Supplied bindings parameter
  readsBack : ∀ x, node = .literal (.real x) → x.ReadsBack

/-- Whether a scalar stands for an expression: as a column, and by its cell on joined rows. -/
structure Represents
    (i : Interpretation)
    (scalar : Scalar)
    (e : Expr) :
    Prop where
  affinity : scalar.affinity? = i.affinity? e
  cell : ∀ row ∈ i.allRows, scalar.cell row = i.cell row e

/-- Whether a term stands for an expression, also where the resolution of names leaves it out. -/
structure Faithful
    (i : Interpretation)
    (bindings : Bindings)
    (e : Expr)
    (term : Sql.Term) :
    Prop where
  never : term.isNever = true → ∀ row, i.cell row e = .integer 0
  resolved : (∀ node ∈ e.nodes, i.Provided bindings node) →
    (∀ call ∈ e.searchCalls, i.FoundFor call.1) →
    ∀ {scalar}, Scalar.ofTerm i.tables bindings term = .ok scalar → i.Represents scalar e

variable {i : Interpretation} {bindings : Bindings}

omit [NumeralReading] in
/-- A qualified column is looked up among the tables with the alias. -/
theorem ofTerm_column_eq_ok
    {sources : List BoundTable}
    {tableAlias name : String}
    {scalar : Scalar} :
    Scalar.ofTerm sources bindings (.column tableAlias name) = .ok scalar ↔
      ∃ ref, findColumn (sources.zipIdx.filter fun entry =>
        sameName entry.1.tableAlias tableAlias) name = .ok ref ∧ scalar = .column ref := by
  rw [Scalar.ofTerm, Except.bind_eq_ok]
  simp [eq_comm]

omit [NumeralReading] in
/-- The names in several terms are found one term after the other. -/
theorem ofTerms_eq_mapM
    (sources : List BoundTable)
    (bindings : Bindings)
    (terms : List Sql.Term) :
    Scalar.ofTerms sources bindings terms = terms.mapM (Scalar.ofTerm sources bindings) := by
  induction terms with
  | nil => rfl
  | cons term terms inductionHypothesis =>
      rw [Scalar.ofTerms, inductionHypothesis, List.mapM_cons]

section Faithful

variable {left right operand : Expr} {l r o : Sql.Term}

/-- A qualified column stands for the member whose column it is. -/
theorem faithful_member
    (complete : i.Complete)
    (agrees : i.Agrees)
    {source property : String}
    {entity : Entity}
    {declared : Property}
    (ranges : i.query.entityOf? i.model source = some entity)
    (has : entity.property? property = some declared) :
    i.Faithful bindings (.member source property) (.column source declared.column) where
  never := nofun
  resolved := by
    intro _ _ scalar resolves
    obtain ⟨ref, found, rfl⟩ := ofTerm_column_eq_ok.mp resolves
    have isColumn : i.memberColumn? source property = some ref := by
      rw [memberColumn?, ranges]
      simp only [Option.bind_eq_bind, Option.bind_some, has]
      exact column?_of_findColumn complete agrees ranges (List.mem_of_find?_eq_some has) found
    exact ⟨by simp [Scalar.affinity?, affinity?, isColumn],
      fun row _ => by simp [Scalar.cell, cell, isColumn]⟩

/-- A real literal is meant by what it is read as only if the store reads it back. -/
theorem faithful_literal
    {value : Value}
    {term : Sql.Term}
    (reads : Sql.literalTerm? value = some term) :
    i.Faithful bindings (.literal value) term where
  never := by
    intro never row
    cases value with
    | real x =>
        rcases Sql.literalTerm?_real_eq_some reads with ⟨word, rfl⟩ | ⟨y, rfl⟩
        · cases never
        · cases never
    | integer n =>
        obtain rfl := Option.some.inj reads
        obtain rfl : n = 0 := by simpa [Sql.Term.isNever] using never
        rfl
    | null =>
        obtain rfl := Option.some.inj reads
        cases never
    | text s =>
        obtain rfl := Option.some.inj reads
        cases never
  resolved := by
    intro provided _ scalar resolves
    have isLiteral : Sql.literalTerm? value = some (.literal value) := by
      cases value with
      | real x =>
          exact Sql.literalTerm?_of_readsBack
            ((provided _ (Expr.mem_nodes_self _)).readsBack x rfl)
      | null | integer n | text s => rfl
    obtain rfl := Option.some.inj (isLiteral.symm.trans reads)
    obtain rfl : .constant (Cell.ofValue value) = scalar := Except.ok.inj resolves
    exact ⟨rfl, fun row _ => by simp [Scalar.cell, cell]⟩

/-- A parameter stands for what the caller supplies under its name. -/
theorem faithful_parameter
    (name : String) :
    i.Faithful bindings (.parameter name) (.parameter name) where
  never := nofun
  resolved := by
    intro provided _ scalar resolves
    obtain rfl : .constant (bindings.cell name) = scalar := Except.ok.inj resolves
    obtain ⟨value, isValue, isBound⟩ : i.Supplied bindings ⟨name, .caller⟩ :=
      (provided (.parameter name) (Expr.mem_nodes_self _)).supplied _ rfl
    exact ⟨rfl, fun row _ => by simp [Scalar.cell, cell, Bindings.cell, isValue, isBound]⟩

/-- A comparison of terms stands for the comparison of what they stand for. -/
theorem faithful_compare
    (op : Comparison)
    (leftFaithful : i.Faithful bindings left l)
    (rightFaithful : i.Faithful bindings right r) :
    i.Faithful bindings (.compare left op right) (.compare l (Expr.operator op right) r) where
  never := nofun
  resolved := by
    intro provided found scalar resolves
    simp only [Expr.nodes_compare, List.forall_mem_cons, List.forall_mem_append] at provided
    simp only [Expr.searchCalls_compare, List.forall_mem_append] at found
    simp only [Scalar.ofTerm, Except.bind_eq_ok] at resolves
    obtain ⟨a, leftResolves, b, rightResolves, ⟨⟩⟩ := resolves
    have leftIs := leftFaithful.resolved provided.2.1 found.1 leftResolves
    have rightIs := rightFaithful.resolved provided.2.2 found.2 rightResolves
    refine ⟨rfl, fun row isRow => ?_⟩
    rw [Scalar.cell, cell, leftIs.affinity, rightIs.affinity, leftIs.cell row isRow,
      rightIs.cell row isRow]

/-- A conjunction stands for the conjunction, also if it is left out as false in any case. -/
theorem faithful_and
    (leftFaithful : i.Faithful bindings left l)
    (rightFaithful : i.Faithful bindings right r) :
    i.Faithful bindings (.and left right) (.and l r) := by
  have isZero : (Sql.Term.and l r).isNever = true →
      ∀ row, i.cell row (.and left right) = .integer 0 := by
    intro never row
    simp only [Sql.Term.isNever, Bool.and_eq_true, Bool.or_eq_true] at never
    rw [cell]
    rcases never.1.1 with leftNever | rightNever
    · rw [leftFaithful.never leftNever]
      rfl
    · rw [rightFaithful.never rightNever]
      rcases (i.cell row left).truth? with _ | _ | _ <;> rfl
  refine ⟨isZero, ?_⟩
  intro provided found scalar resolves
  simp only [Expr.nodes_and, List.forall_mem_cons, List.forall_mem_append] at provided
  simp only [Expr.searchCalls_and, List.forall_mem_append] at found
  rw [Scalar.ofTerm] at resolves
  split at resolves
  · rename_i never
    obtain rfl := Except.ok.inj resolves
    exact ⟨rfl, fun row _ => (isZero never row).symm⟩
  · simp only [Except.bind_eq_ok] at resolves
    obtain ⟨a, leftResolves, b, rightResolves, ⟨⟩⟩ := resolves
    have leftIs := leftFaithful.resolved provided.2.1 found.1 leftResolves
    have rightIs := rightFaithful.resolved provided.2.2 found.2 rightResolves
    refine ⟨rfl, fun row isRow => ?_⟩
    rw [Scalar.cell, cell, leftIs.cell row isRow, rightIs.cell row isRow]

/-- A disjunction of terms stands for the disjunction of what they stand for. -/
theorem faithful_or
    (leftFaithful : i.Faithful bindings left l)
    (rightFaithful : i.Faithful bindings right r) :
    i.Faithful bindings (.or left right) (.or l r) where
  never := nofun
  resolved := by
    intro provided found scalar resolves
    simp only [Expr.nodes_or, List.forall_mem_cons, List.forall_mem_append] at provided
    simp only [Expr.searchCalls_or, List.forall_mem_append] at found
    simp only [Scalar.ofTerm, Except.bind_eq_ok] at resolves
    obtain ⟨a, leftResolves, b, rightResolves, ⟨⟩⟩ := resolves
    have leftIs := leftFaithful.resolved provided.2.1 found.1 leftResolves
    have rightIs := rightFaithful.resolved provided.2.2 found.2 rightResolves
    refine ⟨rfl, fun row isRow => ?_⟩
    rw [Scalar.cell, cell, leftIs.cell row isRow, rightIs.cell row isRow]

/-- A negated term stands for the negation of what the term stands for. -/
theorem faithful_not
    (operandFaithful : i.Faithful bindings operand o) :
    i.Faithful bindings (.not operand) (.not o) where
  never := nofun
  resolved := by
    intro provided found scalar resolves
    simp only [Expr.nodes_not, List.forall_mem_cons] at provided
    rw [Expr.searchCalls_not] at found
    simp only [Scalar.ofTerm, Except.bind_eq_ok] at resolves
    obtain ⟨a, operandResolves, ⟨⟩⟩ := resolves
    have operandIs := operandFaithful.resolved provided.2 found operandResolves
    refine ⟨rfl, fun row isRow => ?_⟩
    rw [Scalar.cell, cell, operandIs.cell row isRow]

/-- The membership test of a search call asks for the key of its item among the values found. -/
theorem faithful_search
    (complete : i.Complete)
    (agrees : i.Agrees)
    {e : Expr}
    {source : String}
    {phrase : Expr.SearchPhrase}
    {entity : Entity}
    {key : Property}
    {index : String}
    (isSearch : e.searchCall? = some (source, phrase))
    (ranges : i.query.entityOf? i.model source = some entity)
    (searchable : entity.searchable? = some (key, index)) :
    i.Faithful bindings e
      (.inArray (.column source key.column) (Search.keyParameter 1)) where
  never := nofun
  resolved := by
    intro provided found scalar resolves
    rw [Scalar.ofTerm, Except.bind_eq_ok] at resolves
    obtain ⟨column, columnResolves, ⟨⟩⟩ := resolves
    obtain ⟨ref, isFound, rfl⟩ := ofTerm_column_eq_ok.mp columnResolves
    obtain ⟨_, has, notReal, _⟩ := Entity.searchable?_eq_some.mp searchable
    have declared : key ∈ entity.properties := List.mem_of_find?_eq_some has
    have isColumn : i.column? source key.column = some ref :=
      column?_of_findColumn complete agrees ranges declared isFound
    have isKey : ∀ row, i.key row source = ref.cell row := by
      intro row
      simp [Interpretation.key, keyColumn?, ranges, searchable, isColumn]
    have ofKind : ∀ value ∈ i.found, value.kind? = some key.kind :=
      found (source, phrase) (by simp [Expr.searchCalls_of_searchCall? isSearch]) entity ranges
        (key, index) searchable
    have isBound : bindings.get? (Search.keyParameter 1) = some (.array i.found) :=
      (provided e (Expr.mem_nodes_self e)).supplied ⟨Search.keyParameter 1, .search⟩
        (Expr.use?_eq_some_search.mpr ⟨rfl, by simp [isSearch]⟩)
    have noAffinity : i.affinity? e = none := by
      obtain ⟨text, rfl, _⟩ := Expr.searchCall?_eq_some.mp isSearch
      rfl
    refine ⟨noAffinity.symm, fun row isRow => ?_⟩
    obtain ⟨holds, stored⟩ := cell_of_column? complete agrees ranges declared isColumn isRow
    rw [cell_of_searchCall? isSearch, isKey, Scalar.cell, Bindings.cells, isBound]
    exact tested_eq_foundAmong notReal ofKind holds stored

omit [NumeralReading] in
/-- A function is found under its name in any case. -/
theorem ofName?_upperName
    (name : String) :
    ScalarFunction.ofName? (Sql.upperName name) = ScalarFunction.ofName? name := by
  simp [ScalarFunction.ofName?, Sql.upperName, Function.comp_def]

/-- A call stands for the call of the same function in whatever case it is written. -/
theorem faithful_call
    {function : String}
    {args : List Expr}
    {terms : List Sql.Term}
    (notSearch : (Expr.call function args).searchCall? = none)
    (argsFaithful : List.Forall₂ (i.Faithful bindings) args terms) :
    i.Faithful bindings (.call function args) (.call (Sql.upperName function) terms) where
  never := nofun
  resolved := by
    intro provided found scalar resolves
    simp only [Expr.nodes_call, notSearch, Option.isSome_none, Bool.false_eq_true, ↓reduceIte,
      List.forall_mem_cons, List.forall_mem_flatMap] at provided
    simp only [Expr.searchCalls_call notSearch, List.forall_mem_flatMap] at found
    simp only [Scalar.ofTerm, ofTerms_eq_mapM, ofName?_upperName, Except.bind_eq_ok,
      Except.mapM_eq_ok] at resolves
    obtain ⟨scalars, argsResolve, resolves⟩ := resolves
    split at resolves
    · cases resolves
    · rename_i scalarFunction arg isFunction
      obtain rfl := Except.ok.inj resolves
      refine ⟨rfl, fun row isRow => ?_⟩
      cases argsResolve with
      | cons argResolves noFurther =>
          obtain rfl := List.forall₂_nil_right_iff.mp noFurther
          obtain ⟨e, others, argFaithful, noOther, rfl⟩ :=
            List.forall₂_cons_right_iff.mp argsFaithful
          obtain rfl := List.forall₂_nil_right_iff.mp noOther
          have argIs :=
            argFaithful.resolved (provided.2 e (by simp)) (found e (by simp)) argResolves
          rw [cell_call notSearch, isFunction, Scalar.cell, argIs.cell row isRow]
          rfl
    · cases resolves

/-- What the image of an expression is read as stands for the expression. -/
theorem faithful_of_readAs
    (complete : i.Complete)
    (agrees : i.Agrees)
    {e : Expr}
    {term : Sql.Term}
    (readAs : e.ReadAs i.model i.query term) :
    i.Faithful bindings e term :=
  readAs.induction
    (fun _ _ _ _ ranges has => faithful_member complete agrees ranges has)
    (fun _ _ reads => faithful_literal reads)
    faithful_parameter
    (fun _ op _ _ _ left right => faithful_compare op left right)
    (fun _ _ _ _ left right => faithful_and left right)
    (fun _ _ _ _ left right => faithful_or left right)
    (fun _ _ operand => faithful_not operand)
    (fun _ _ _ _ _ _ isSearch ranges searchable =>
      faithful_search complete agrees isSearch ranges searchable)
    (fun _ _ _ notSearch _ args => faithful_call notSearch args)

end Faithful

end Interpretation

end FullTextQuery
