import FullTextQuery.NameMap

namespace FullTextQuery.NameMap

/-!
# Looking up names

What a map has under a name after an entry was put into it, and where the
names of its entries come from.
-/

@[simp] theorem get?_empty
    (name : String) :
    (NameMap.empty : NameMap α).get? name = none :=
  rfl

/-- Replacing the value of a name that is there changes what is under this name only. -/
theorem lookup_replaceFirst
    {entries : List (String × α)}
    {name : String}
    {value : α}
    (present : (entries.lookup name).isSome)
    (other : String) :
    (replaceFirst name value entries).lookup other =
      if other = name then some value else entries.lookup other := by
  induction entries with
  | nil =>
      simp at present
  | cons entry rest inductionHypothesis =>
      obtain ⟨first, old⟩ := entry
      by_cases isFirst : name = first
      · subst isFirst
        by_cases isName : other = name
        · simp [replaceFirst, isName]
        · simp [replaceFirst, List.lookup_cons, isName, beq_eq_false_iff_ne.mpr isName]
      · have restPresent : (rest.lookup name).isSome := by
          simpa [List.lookup_cons, beq_eq_false_iff_ne.mpr isFirst] using present
        have restLookup := inductionHypothesis restPresent
        by_cases otherFirst : other = first
        · subst otherFirst
          simp [replaceFirst, isFirst, Ne.symm isFirst]
        · simp [replaceFirst, isFirst, List.lookup_cons,
            beq_eq_false_iff_ne.mpr otherFirst, restLookup]

/-- Putting a value under a name changes what is under this name only. -/
theorem get?_insert
    (map : NameMap α)
    (name : String)
    (value : α)
    (other : String) :
    (map.insert name value).get? other =
      if other = name then some value else map.get? other := by
  unfold insert
  by_cases present : map.contains name
  · simp only [present, ↓reduceIte]
    exact lookup_replaceFirst present other
  · have absent : map.entries.lookup name = none :=
      Option.not_isSome_iff_eq_none.mp present
    simp only [present, Bool.false_eq_true, ↓reduceIte, get?, List.lookup_append]
    by_cases isName : other = name
    · simp [isName, absent]
    · simp [List.lookup_cons, isName, beq_eq_false_iff_ne.mpr isName]

/-- A name has a value exactly if it is among the names. -/
theorem contains_iff_mem_names
    {map : NameMap α}
    {name : String} :
    map.contains name = true ↔ name ∈ map.names := by
  obtain ⟨entries⟩ := map
  cases entries with
  | nil =>
      simp [contains, get?, names]
  | cons entry rest =>
      by_cases isFirst : name = entry.1
      · simp [contains, get?, names, isFirst]
      · simp [contains, get?, names, isFirst]

/-- An entry under a new name goes behind the others. -/
theorem entries_insert_of_not_mem
    {map : NameMap α}
    {name : String}
    (absent : name ∉ map.names)
    (value : α) :
    (map.insert name value).entries = map.entries ++ [(name, value)] := by
  have notContained : ¬ map.contains name = true := by
    rwa [contains_iff_mem_names]
  simp [insert, notContained]

/-- Erasing a name changes what is under this name only. -/
theorem get?_erase
    (map : NameMap α)
    (name other : String) :
    (map.erase name).get? other = if other = name then none else map.get? other := by
  obtain ⟨entries⟩ := map
  simp only [erase, get?]
  induction entries with
  | nil =>
      simp
  | cons entry rest inductionHypothesis =>
      obtain ⟨first, value⟩ := entry
      by_cases isFirst : first = name
      · rw [List.filter_cons_of_neg (by simpa using isFirst), inductionHypothesis]
        by_cases isName : other = name
        · simp [isName]
        · simp [isName, isFirst, List.lookup_cons, beq_eq_false_iff_ne.mpr isName]
      · rw [List.filter_cons_of_pos (by simpa using isFirst)]
        by_cases otherFirst : other = first
        · simp [otherFirst, isFirst]
        · simpa [List.lookup_cons, beq_eq_false_iff_ne.mpr otherFirst] using inductionHypothesis

/-- Without a name that stands first and nowhere else, the other names are left. -/
theorem names_erase_of_names_eq_cons
    {map : NameMap α}
    {name : String}
    {others : List String}
    (areNames : map.names = name :: others)
    (notOther : name ∉ others) :
    (map.erase name).names = others := by
  have isFilter : (map.erase name).names = map.names.filter (· ≠ name) := by
    simp only [erase, names, List.filter_map]
    rfl
  rw [isFilter, areNames, List.filter_cons_of_neg (by simp), List.filter_eq_self]
  intro other isOther
  simpa using fun same : other = name => notOther (same ▸ isOther)

/-- A value in place of another leaves the names as they are. -/
theorem names_insert_of_contains
    {map : NameMap α}
    {name : String}
    (present : map.contains name = true)
    (value : α) :
    (map.insert name value).names = map.names := by
  have replaced : ∀ entries : List (String × α),
      (replaceFirst name value entries).map (·.1) = entries.map (·.1) := by
    intro entries
    induction entries with
    | nil => rfl
    | cons entry rest inductionHypothesis =>
        unfold replaceFirst
        split <;> simp_all
  simp only [insert, present, ↓reduceIte, names, replaced]

end FullTextQuery.NameMap
