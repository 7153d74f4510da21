import FullTextQuery.Proofs.Sql.Writing
import Mathlib.Data.List.Nodup

namespace FullTextQuery.Sql

/-!
# The list of a statement's parameters

Every parameter is listed once.  There is a list exactly if no name is used
with two suppliers, and it has the parameters that are used and no other.
-/

variable {listed after uses : List StatementParameter}

/-- Whether no name is listed twice. -/
def Distinct
    (listed : List StatementParameter) :
    Prop :=
  (listed.map (·.name)).Nodup

theorem distinct_nil :
    Distinct [] :=
  List.nodup_nil

/-- In a list without repeated names, a name decides the parameter. -/
theorem Distinct.eq_of_name_eq
    (distinct : Distinct listed)
    {first second : StatementParameter}
    (firstListed : first ∈ listed)
    (secondListed : second ∈ listed)
    (sameName : first.name = second.name) :
    first = second :=
  List.inj_on_of_nodup_map distinct firstListed secondListed sameName

/-- In a list without repeated names, a single value set is listed once. -/
theorem Distinct.filter_search_eq_singleton
    (distinct : Distinct listed)
    {valueSet : String}
    (only : ∀ name, ⟨name, .search⟩ ∈ listed ↔ name = valueSet) :
    listed.filter (·.supplier = .search) = [⟨valueSet, .search⟩] := by
  have nodup : (listed.filter (·.supplier = .search)).Nodup :=
    (List.Nodup.of_map _ distinct).filter _
  rw [← List.perm_singleton, List.perm_ext_iff_of_nodup nodup (List.nodup_singleton _)]
  rintro ⟨name, supplier⟩
  cases supplier with
  | caller => simp
  | search => simpa using only name

/-- Listing a use keeps the names distinct and adds at most the parameter that is used. -/
theorem listUse_eq_ok
    (distinct : Distinct listed)
    {use : StatementParameter}
    (success : listUse listed use = .ok after) :
    Distinct after ∧ ∀ parameter, parameter ∈ after ↔ parameter ∈ listed ∨ parameter = use := by
  unfold listUse at success
  split at success
  · rename_i earlier found
    have isListed : earlier ∈ listed := List.mem_of_find?_eq_some found
    have sameName : earlier.name = use.name := by
      simpa using List.find?_some found
    split at success
    · rename_i sameSupplier
      obtain rfl : listed = after := Except.ok.inj success
      obtain rfl : earlier = use := by
        cases earlier
        cases use
        simp_all
      refine ⟨distinct, fun parameter => ⟨.inl, ?_⟩⟩
      rintro (isThere | rfl)
      · exact isThere
      · exact isListed
    · simp at success
  · rename_i notFound
    obtain rfl : listed ++ [use] = after := Except.ok.inj success
    refine ⟨?_, by simp⟩
    have isNew : use.name ∉ listed.map (·.name) := by
      simpa using notFound
    simpa [Distinct, List.nodup_append] using
      ⟨distinct, fun parameter isListed same =>
        isNew (List.mem_map.mpr ⟨parameter, isListed, same⟩)⟩

/-- Listing uses keeps the names distinct and adds the parameters that are used. -/
theorem listUses_eq_ok
    (distinct : Distinct listed)
    (success : listUses listed uses = .ok after) :
    Distinct after ∧
      ∀ parameter, parameter ∈ after ↔ parameter ∈ listed ∨ parameter ∈ uses := by
  induction uses generalizing listed with
  | nil =>
      obtain rfl : listed = after := by simpa [listUses] using success
      exact ⟨distinct, by simp⟩
  | cons use rest inductionHypothesis =>
      obtain ⟨between, useListed, restListed⟩ := Except.bind_eq_ok.mp success
      obtain ⟨betweenDistinct, betweenHas⟩ := listUse_eq_ok distinct useListed
      obtain ⟨afterDistinct, afterHas⟩ := inductionHypothesis betweenDistinct restListed
      refine ⟨afterDistinct, fun parameter => ?_⟩
      rw [afterHas, betweenHas, List.mem_cons, or_assoc]

/-- Uses can be listed exactly if each agrees with what is listed and with the other uses. -/
theorem exists_listUses_iff
    (distinct : Distinct listed) :
    (∃ after, listUses listed uses = .ok after) ↔
      ∀ first ∈ listed ++ uses, ∀ second ∈ uses, first.name = second.name → first = second := by
  constructor
  · rintro ⟨after, success⟩ first firstUsed second secondUsed sameName
    obtain ⟨afterDistinct, afterHas⟩ := listUses_eq_ok distinct success
    exact afterDistinct.eq_of_name_eq ((afterHas first).mpr (List.mem_append.mp firstUsed))
      ((afterHas second).mpr (.inr secondUsed)) sameName
  · intro agree
    induction uses generalizing listed with
    | nil =>
        exact ⟨listed, rfl⟩
    | cons use rest inductionHypothesis =>
        have useListed : ∃ between, listUse listed use = .ok between := by
          unfold listUse
          split
          · rename_i earlier found
            have isListed : earlier ∈ listed := List.mem_of_find?_eq_some found
            have same : earlier = use :=
              agree earlier (by simp [isListed]) use (by simp)
                (by simpa using List.find?_some found)
            exact ⟨listed, by simp [same]⟩
          · exact ⟨_, rfl⟩
        obtain ⟨between, useListed⟩ := useListed
        obtain ⟨betweenDistinct, betweenHas⟩ := listUse_eq_ok distinct useListed
        have restListed := inductionHypothesis betweenDistinct fun first firstUsed second used => by
          refine agree first ?_ second (by simp [used])
          simp only [List.mem_append, betweenHas, List.mem_cons] at firstUsed ⊢
          tauto
        obtain ⟨after, restListed⟩ := restListed
        exact ⟨after, Except.bind_eq_ok.mpr ⟨between, useListed, restListed⟩⟩

/-- Uses fail to be listed only for a reason of planning. -/
theorem failsOnlyBy_listUses
    (listed uses : List StatementParameter) :
    (listUses listed uses).FailsOnlyBy Error.IsPlan := by
  induction uses generalizing listed with
  | nil => exact .ok
  | cons use rest inductionHypothesis =>
      refine .bind ?_ fun between _ => inductionHypothesis between
      intro e failed
      unfold listUse at failed
      split at failed
      · split at failed
        · simp at failed
        · exact ⟨_, (Except.error.inj failed).symm⟩
      · simp at failed

end FullTextQuery.Sql
