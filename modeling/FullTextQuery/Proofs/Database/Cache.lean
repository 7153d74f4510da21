import FullTextQuery.Database.Basic
import FullTextQuery.Proofs.NameMap
import FullTextQuery.Proofs.Outcome
import Mathlib.Data.List.DropRight
import Mathlib.Data.List.Nodup

namespace FullTextQuery

/-!
# What a cache holds

The texts in the queue of a cache are those that it has something under, in the
order in which they were added.  So a database that prepares queries through its
cache has the newest of them in it, and answers as if it had none.
-/

namespace TextCache

/-- Whether the queue has the texts of the entries, each of them once and no more than fit. -/
structure InStep
    (cache : TextCache α) :
    Prop where
  names : cache.entries.names = cache.order
  nodup : cache.order.Nodup
  fits : cache.order.length ≤ cache.capacity

section Evict

variable {capacity : Nat} {entries : NameMap α} {order : List String}

/-- Dropping entries leaves the capacity as it is. -/
theorem capacity_evict :
    (evict capacity entries order).capacity = capacity := by
  fun_induction evict capacity entries order <;> simp_all

/-- What is left of the queue are its newest texts. -/
theorem order_evict :
    (evict capacity entries order).order = order.rtake capacity := by
  fun_induction evict capacity entries order with
  | case1 => simp
  | case2 entries oldest order tooMany inductionHypothesis =>
      have one : (oldest :: order).length - capacity = order.length - capacity + 1 := by
        rw [List.length_cons]
        omega
      rw [inductionHypothesis, List.rtake, List.rtake, one, List.drop_succ_cons]
  | case3 entries oldest order few =>
      have none : (oldest :: order).length - capacity = 0 := by
        rw [List.length_cons]
        omega
      rw [List.rtake, none, List.drop_zero]

/-- Entries and queue stay together. -/
theorem names_evict
    (together : entries.names = order)
    (nodup : order.Nodup) :
    (evict capacity entries order).entries.names = (evict capacity entries order).order := by
  fun_induction evict capacity entries order with
  | case1 => exact together
  | case2 entries oldest order tooMany inductionHypothesis =>
      obtain ⟨notOther, others⟩ := List.nodup_cons.mp nodup
      exact inductionHypothesis (NameMap.names_erase_of_names_eq_cons together notOther) others
  | case3 => exact together

/-- What is left under a text is what was there. -/
theorem get?_of_get?_evict
    {text : String}
    {value : α}
    (left : (evict capacity entries order).get? text = some value) :
    entries.get? text = some value := by
  fun_induction evict capacity entries order with
  | case1 => exact left
  | case2 entries oldest order tooMany inductionHypothesis =>
      have stays := inductionHypothesis left
      rw [NameMap.get?_erase] at stays
      split at stays
      · cases stays
      · exact stays
  | case3 => exact left

end Evict

variable {cache : TextCache α}

/-- An empty cache has its entries and its order in step. -/
theorem inStep_empty
    (capacity : Nat) :
    InStep ({ capacity } : TextCache α) :=
  ⟨rfl, .nil, Nat.zero_le _⟩

/-- An insertion leaves the capacity as it is. -/
theorem capacity_insert
    (text : String)
    (value : α) :
    (cache.insert text value).capacity = cache.capacity := by
  unfold insert
  split
  · rfl
  · split
    · rfl
    · exact capacity_evict

/--
A text that is held keeps its place in the queue, and a new one comes last, where the
oldest makes room for it.
-/
theorem InStep.order_insert
    (inStep : cache.InStep)
    (text : String)
    (value : α) :
    (cache.insert text value).order =
      if cache.entries.contains text then cache.order
      else (cache.order ++ [text]).rtake cache.capacity := by
  unfold insert
  split
  · rename_i isZero
    have isEmpty : cache.order = [] := by
      simpa [isZero] using inStep.fits
    simp [isEmpty, isZero]
  · split
    · rfl
    · exact order_evict

/-- An insertion keeps entries and order in step. -/
theorem InStep.insert
    (inStep : cache.InStep)
    (text : String)
    (value : α) :
    (cache.insert text value).InStep := by
  unfold TextCache.insert
  split
  · exact inStep
  · split
    · rename_i held
      exact ⟨(NameMap.names_insert_of_contains held value).trans inStep.names, inStep.nodup,
        inStep.fits⟩
    · rename_i notHeld
      have isNew : text ∉ cache.entries.names := by
        rwa [← NameMap.contains_iff_mem_names]
      have together : (cache.entries.insert text value).names = cache.order ++ [text] := by
        simp [← inStep.names, NameMap.names, NameMap.entries_insert_of_not_mem isNew]
      have nodup : (cache.order ++ [text]).Nodup :=
        List.Nodup.append inStep.nodup (List.nodup_singleton text)
          (List.disjoint_singleton.mpr (inStep.names ▸ isNew))
      refine ⟨names_evict together nodup, ?_, ?_⟩
      · rw [order_evict]
        exact nodup.sublist (List.drop_sublist _ _)
      · rw [order_evict, capacity_evict, List.rtake, List.length_drop]
        omega

/-- Inserted entries, one after another. -/
def insertAll
    (cache : TextCache α)
    (inserted : List (String × α)) :
    TextCache α :=
  inserted.foldl (fun cache entry => cache.insert entry.1 entry.2) cache

/-- The newest of the newest texts and one more are the newest of all. -/
theorem rtake_rtake_append
    (earlier : List String)
    (capacity : Nat)
    (text : String) :
    (earlier.rtake capacity ++ [text]).rtake capacity = (earlier ++ [text]).rtake capacity := by
  cases capacity with
  | zero => simp
  | succ capacity =>
      simp [List.rtake_eq_reverse_take_reverse, List.take_take]

/-- Whatever is inserted, the queue and the entries stay together. -/
theorem InStep.insertAll
    (inStep : cache.InStep)
    (inserted : List (String × α)) :
    (cache.insertAll inserted).InStep := by
  induction inserted generalizing cache with
  | nil => exact inStep
  | cons entry inserted inductionHypothesis =>
      exact inductionHypothesis (inStep.insert entry.1 entry.2)

/-- What is under a text after an insertion was inserted, or was there before. -/
theorem get?_insert
    {text other : String}
    {value held : α}
    (isHeld : (cache.insert text value).get? other = some held) :
    other = text ∧ held = value ∨ cache.get? other = some held := by
  have put : (cache.entries.insert text value).get? other = some held →
      other = text ∧ held = value ∨ cache.entries.get? other = some held := by
    rw [NameMap.get?_insert]
    split
    · rintro ⟨⟩
      exact .inl ⟨‹_›, rfl⟩
    · exact .inr
  unfold insert at isHeld
  split at isHeld
  · exact .inr isHeld
  · split at isHeld
    · exact put isHeld
    · exact put (get?_of_get?_evict isHeld)

end TextCache

namespace Database

/-- The outcomes for some texts, one prepared after the other, and the database behind them. -/
def prepareAll
    (database : Database σ) :
    List String → List (Except Error PreparedQuery) × Database σ
  | [] => ([], database)
  | text :: texts =>
      let (outcome, next) := database.prepare text
      let (outcomes, last) := next.prepareAll texts
      (outcome :: outcomes, last)

/-- Whether a text that is prepared is planned anew, with success. -/
def plansAnew
    (database : Database σ)
    (text : String) :
    Bool :=
  !database.cache.entries.contains text && (database.planText text).isOk

/-- Those of some texts that are planned anew with success, one prepared after the other. -/
def plannedAnew
    (database : Database σ) :
    List String → List String
  | [] => []
  | text :: texts =>
      (if database.plansAnew text then [text] else [])
        ++ plannedAnew (database.prepare text).2 texts

/-- A database whose cache is in step and has the plans of its texts. -/
structure CachesPlans
    (database : Database σ) :
    Prop where
  inStep : database.cache.InStep
  plans : ∀ text prepared, database.cache.get? text = some prepared →
    database.planText text = .ok prepared.plan

variable {database : Database σ} {text : String}

/-- A text in the cache is not planned, and nothing changes. -/
theorem prepare_of_get?
    {prepared : PreparedQuery}
    (held : database.cache.get? text = some prepared) :
    database.prepare text = (.ok prepared, database) := by
  simp [prepare, held]

/-- A text without a plan is refused, and nothing changes. -/
theorem prepare_of_planText_error
    {e : Error}
    (absent : database.cache.get? text = none)
    (refused : database.planText text = .error e) :
    database.prepare text = (.error e, database) := by
  simp [prepare, absent, refused]

/-- A text that is planned anew is put into the cache. -/
theorem prepare_of_planText_ok
    {plan : QueryPlan}
    (absent : database.cache.get? text = none)
    (planned : database.planText text = .ok plan) :
    database.prepare text =
      (.ok ⟨database.preparations, plan⟩,
        { database with
          cache := database.cache.insert text ⟨database.preparations, plan⟩
          preparations := database.preparations + 1 }) := by
  simp [prepare, absent, planned]

/-- Preparing a text changes no plans. -/
theorem planText_prepare
    (other : String) :
    (database.prepare text).2.planText other = database.planText other := by
  unfold prepare
  split
  · rfl
  · split <;> rfl

/-- Preparing a text leaves the capacity of the cache as it is. -/
theorem capacity_prepare
    (text : String) :
    (database.prepare text).2.cache.capacity = database.cache.capacity := by
  unfold prepare
  split
  · rfl
  · split
    · rfl
    · exact TextCache.capacity_insert _ _

namespace CachesPlans

variable (caches : database.CachesPlans)

include caches

/-- With or without the cache, a text has the same plan. -/
theorem plan_prepare
    (text : String) :
    (database.prepare text).1.map (·.plan) = database.planText text := by
  cases held : database.cache.get? text with
  | some prepared =>
      rw [prepare_of_get? held, caches.plans text prepared held]
      rfl
  | none =>
      cases planned : database.planText text with
      | error e => rw [prepare_of_planText_error held planned]; rfl
      | ok plan => rw [prepare_of_planText_ok held planned]; rfl

/-- A text that is planned anew comes last in the queue; other texts leave it as it is. -/
theorem order_prepare
    (text : String) :
    (database.prepare text).2.cache.order =
      if database.plansAnew text then
        (database.cache.order ++ [text]).rtake database.cache.capacity
      else
        database.cache.order := by
  have isHeld : database.cache.entries.contains text = (database.cache.get? text).isSome :=
    rfl
  cases held : database.cache.get? text with
  | some prepared =>
      simp [prepare_of_get? held, plansAnew, isHeld, held]
  | none =>
      cases planned : database.planText text with
      | error e =>
          simp [prepare_of_planText_error held planned, plansAnew, planned, Except.isOk,
            Except.toBool]
      | ok plan =>
          simp [prepare_of_planText_ok held planned, caches.inStep.order_insert, plansAnew,
            planned, isHeld, held, Except.isOk, Except.toBool]

/-- Preparing a text keeps the cache in step and its plans right. -/
theorem prepare
    (text : String) :
    (database.prepare text).2.CachesPlans := by
  cases held : database.cache.get? text with
  | some prepared =>
      rwa [prepare_of_get? held]
  | none =>
      cases planned : database.planText text with
      | error e =>
          rwa [prepare_of_planText_error held planned]
      | ok plan =>
          refine ⟨?_, fun other prepared isHeld => ?_⟩
          · rw [prepare_of_planText_ok held planned]
            exact caches.inStep.insert _ _
          · rw [planText_prepare]
            rw [prepare_of_planText_ok held planned] at isHeld
            obtain ⟨rfl, rfl⟩ | before := TextCache.get?_insert isHeld
            · exact planned
            · exact caches.plans other prepared before

/-- Preparing texts keeps the cache in step, its plans right and the newest texts in the queue. -/
theorem prepareAll
    (texts : List String)
    (earlier : List String)
    (newest : database.cache.order = earlier.rtake database.cache.capacity) :
    (database.prepareAll texts).2.CachesPlans ∧
      (database.prepareAll texts).1.map (·.map (·.plan)) = texts.map database.planText ∧
      (database.prepareAll texts).2.cache.capacity = database.cache.capacity ∧
      (database.prepareAll texts).2.planText = database.planText ∧
      (database.prepareAll texts).2.cache.order =
        (earlier ++ database.plannedAnew texts).rtake database.cache.capacity := by
  induction texts generalizing database earlier with
  | nil =>
      exact ⟨caches, rfl, rfl, rfl, by simpa [plannedAnew, Database.prepareAll] using newest⟩
  | cons text texts inductionHypothesis =>
      have newestNext : (database.prepare text).2.cache.order =
          (earlier ++ if database.plansAnew text then [text] else []).rtake
            (database.prepare text).2.cache.capacity := by
        rw [caches.order_prepare, capacity_prepare]
        split
        · rw [newest, TextCache.rtake_rtake_append]
        · simpa using newest
      obtain ⟨last, plans, capacity, samePlans, order⟩ :=
        inductionHypothesis (caches.prepare text) _ newestNext
      have samePlansNext : (database.prepare text).2.planText = database.planText :=
        funext planText_prepare
      rw [capacity_prepare] at capacity order
      rw [samePlansNext] at plans samePlans
      refine ⟨last, ?_, capacity, samePlans, ?_⟩
      · simp only [Database.prepareAll, List.map_cons, caches.plan_prepare, plans]
      · rw [plannedAnew, ← List.append_assoc]
        exact order

end CachesPlans

/-- What a database is like after some texts were prepared, of which it had none before. -/
structure CachesNewest
    (database : Database σ)
    (texts : List String) :
    Prop where
  plans : (database.prepareAll texts).1.map (·.map (·.plan)) = texts.map database.planText
  order : (database.prepareAll texts).2.cache.order =
    (database.plannedAnew texts).rtake database.cache.capacity
  names : (database.prepareAll texts).2.cache.entries.names =
    (database.prepareAll texts).2.cache.order
  nodup : (database.prepareAll texts).2.cache.order.Nodup
  size : (database.prepareAll texts).2.cacheSize =
    min database.cache.capacity (database.plannedAnew texts).length
  refused : ∀ text e, database.planText text = .error e →
    (database.prepareAll texts).2.prepare text = (.error e, (database.prepareAll texts).2)
  hit : ∀ text, (database.prepareAll texts).2.cache.entries.contains text = true →
    ((database.prepareAll texts).2.prepare text).2 = (database.prepareAll texts).2

/-- A cache of plans that is empty at first keeps the newest texts of any history. -/
theorem CachesPlans.cachesNewest
    (caches : database.CachesPlans)
    (empty : database.cache.order = [])
    (texts : List String) :
    database.CachesNewest texts := by
  obtain ⟨last, plans, _, samePlans, order⟩ :=
    caches.prepareAll texts [] (by simp [empty])
  refine ⟨plans, order, last.inStep.names, last.inStep.nodup, ?size, ?refused, ?hit⟩
  case size =>
    have sameLength := congrArg List.length (last.inStep.names.trans order)
    simp only [NameMap.names, List.length_map, List.nil_append, List.rtake,
      List.length_drop] at sameLength
    rw [cacheSize, TextCache.size, NameMap.size, sameLength]
    omega
  case refused =>
    intro text e isRefused
    rw [← samePlans] at isRefused
    refine prepare_of_planText_error ?_ isRefused
    cases held : (database.prepareAll texts).2.cache.get? text with
    | none => rfl
    | some prepared => cases (last.plans text prepared held).symm.trans isRefused
  case hit =>
    intro text contained
    obtain ⟨prepared, held⟩ := Option.isSome_iff_exists.mp contained
    rw [prepare_of_get? held]

/--
A database answers as if it had no cache.  Its cache has those texts that were
last planned anew, as many as fit; using a text again does not keep it there for longer.
Whatever is inserted into a cache, its queue has each text of its entries once.
-/
theorem cachesNewest_withCapacity
    (database : Database σ)
    (capacity : Nat)
    (texts : List String)
    (inserted : List (String × PreparedQuery)) :
    (database.withCapacity capacity).CachesNewest texts ∧
      (TextCache.insertAll { capacity } inserted).InStep := by
  have caches : (database.withCapacity capacity).CachesPlans :=
    ⟨TextCache.inStep_empty capacity, by rintro text prepared ⟨⟩⟩
  exact ⟨caches.cachesNewest rfl texts, (TextCache.inStep_empty capacity).insertAll inserted⟩

end Database

end FullTextQuery
