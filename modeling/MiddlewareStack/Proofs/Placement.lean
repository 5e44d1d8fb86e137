import Mathlib.Data.List.Nodup
import Mathlib.Data.List.Range
import MiddlewareStack.Order
import MiddlewareStack.Proofs.SettledGraph

/-!
# The counters of an ordering

A component waits for as many dependencies as are not placed yet, and the ready ones are those that
wait for none. Both hold from the start and after every placement.
-/

namespace MiddlewareStack

theorem mem_insertId {id other : ComponentId} {ids : List ComponentId} :
    other ∈ insertId id ids ↔ other = id ∨ other ∈ ids := by
  fun_induction insertId id ids with
  | case1 => simp
  | case2 => simp
  | case3 => simp
  | case4 head rest _ _ ih => simp [ih, or_left_comm]

theorem ascending_insertId {id : ComponentId} {ids : List ComponentId}
    (h : ids.Pairwise (· < ·)) : (insertId id ids).Pairwise (· < ·) := by
  fun_induction insertId id ids with
  | case1 => simp
  | case2 head rest less =>
    refine List.pairwise_cons.mpr ⟨fun other member => ?_, h⟩
    rcases List.mem_cons.mp member with rfl | member
    · exact less
    · exact Nat.lt_trans less ((List.pairwise_cons.mp h).1 other member)
  | case3 => exact h
  | case4 head rest notLess different ih =>
    obtain ⟨below, ascending⟩ := List.pairwise_cons.mp h
    refine List.pairwise_cons.mpr ⟨fun other member => ?_, ih ascending⟩
    rcases mem_insertId.mp member with rfl | member
    · exact Nat.lt_of_le_of_ne (Nat.le_of_not_lt notLess) (Ne.symm different)
    · exact below other member

/-- What releasing one component does to a counter that is not at zero. -/
theorem Placement.release_effects {p : Placement} {id : ComponentId} {fewer : Nat}
    (found : p.waiting[id]? = some (fewer + 1)) (ascending : p.ready.Pairwise (· < ·)) :
    (p.release id).placed = p.placed ∧
    (∀ i, (p.release id).waiting[i]? = if i = id then some fewer else p.waiting[i]?) ∧
    (p.release id).ready.Pairwise (· < ·) ∧
    ∀ i, i ∈ (p.release id).ready ↔ i ∈ p.ready ∨ i = id ∧ fewer = 0 := by
  have inside : id < p.waiting.length := (List.getElem?_eq_some_iff.mp found).1
  simp only [Placement.release, found]
  refine ⟨trivial, fun i => ?_, ?_, fun i => ?_⟩
  · by_cases same : i = id
    · subst same
      simp [inside]
    · rw [List.getElem?_set_ne (Ne.symm same), if_neg same]
  · split
    · exact ascending_insertId ascending
    · exact ascending
  · split
    · next zero => simp [mem_insertId, zero, or_comm]
    · next positive => simp [positive]

/-- What releasing some components does to counters that are large enough. -/
theorem foldl_release (ids : List ComponentId) (p : Placement)
    (enough : ∀ i ∈ ids, ∃ left, p.waiting[i]? = some left ∧ ids.count i ≤ left)
    (ascending : p.ready.Pairwise (· < ·)) :
    (ids.foldl Placement.release p).placed = p.placed ∧
    (∀ i, (ids.foldl Placement.release p).waiting[i]? =
      p.waiting[i]?.map fun left => left - ids.count i) ∧
    (ids.foldl Placement.release p).ready.Pairwise (· < ·) ∧
    ∀ i, i ∈ (ids.foldl Placement.release p).ready ↔
      i ∈ p.ready ∨ i ∈ ids ∧ p.waiting[i]? = some (ids.count i) := by
  induction ids generalizing p with
  | nil => simp [ascending]
  | cons id rest ih =>
    obtain ⟨left, found, bound⟩ := enough id List.mem_cons_self
    rw [List.count_cons_self] at bound
    obtain ⟨fewer, rfl⟩ : ∃ fewer, left = fewer + 1 := ⟨left - 1, by omega⟩
    obtain ⟨placed, waiting, sorted, ready⟩ := Placement.release_effects found ascending
    have enough' : ∀ i ∈ rest, ∃ left,
        (p.release id).waiting[i]? = some left ∧ rest.count i ≤ left := by
      intro i member
      by_cases same : i = id
      · subst same
        exact ⟨fewer, by rw [waiting, if_pos rfl], by omega⟩
      · obtain ⟨left, found, bound⟩ := enough i (List.mem_cons_of_mem _ member)
        rw [List.count_cons_of_ne (Ne.symm same)] at bound
        exact ⟨left, by rw [waiting, if_neg same, found], bound⟩
    obtain ⟨placed', waiting', sorted', ready'⟩ := ih (p.release id) enough' sorted
    rw [List.foldl_cons]
    refine ⟨placed'.trans placed, fun i => ?_, sorted', fun i => ?_⟩
    · rw [waiting', waiting]
      by_cases same : i = id
      · subst same
        simp only [if_true, found, Option.map_some, List.count_cons_self]
        congr 1
        omega
      · rw [if_neg same, List.count_cons_of_ne (Ne.symm same)]
    · rw [ready', ready, waiting]
      by_cases same : i = id
      · subst same
        rw [found, List.count_cons_self]
        simp only [if_true, List.mem_cons, true_and, true_or, Option.some.injEq]
        -- A counter that this release brings to zero is not released again.
        have absent : fewer = 0 → rest.count i = 0 := by omega
        constructor
        · rintro ((member | zero) | ⟨_, equal⟩)
          · exact .inl member
          · exact .inr (by have := absent zero; omega)
          · exact .inr (by omega)
        · rintro (member | equal)
          · exact .inl (.inl member)
          · by_cases zero : fewer = 0
            · exact .inl (.inr zero)
            · have : 0 < rest.count i := by omega
              exact .inr ⟨List.count_pos_iff.mp this, by omega⟩
      · rw [if_neg same, List.count_cons_of_ne (Ne.symm same)]
        simp [same]

namespace DependencyGraph

variable {g : DependencyGraph}

/-- Ids are positions. -/
def Numbered (g : DependencyGraph) : Prop :=
  ∀ id comp, g.get? id = some comp → comp.id = id

theorem Numbered.map_id (h : g.Numbered) : g.components.map Component.id = List.range g.size := by
  refine List.ext_getElem (by simp [size]) fun i inside _ => ?_
  have bound : i < g.components.length := by simpa using inside
  simpa using h i g.components[i] (List.getElem?_eq_getElem bound)

/-- A component is released as often as it names the one that was placed. -/
theorem count_dependents (h : g.Numbered) {i id : ComponentId} {comp : Component}
    (present : g.get? i = some comp) : (g.dependents id).count i = comp.dependencies.count id := by
  have counted : ∀ components : List Component, (components.map Component.id).Nodup →
      comp ∈ components → ((components.flatMap fun c =>
        List.replicate (c.dependencies.count id) c.id).count comp.id) =
          comp.dependencies.count id := by
    intro components
    induction components with
    | nil => simp
    | cons first rest ih =>
      intro distinct member
      obtain ⟨fresh, distinct⟩ := List.nodup_cons.mp distinct
      rw [List.flatMap_cons, List.count_append, List.count_replicate]
      by_cases same : first = comp
      · subst same
        have none : (rest.flatMap fun c =>
            List.replicate (c.dependencies.count id) c.id).count first.id = 0 := by
          refine List.count_eq_zero.mpr fun found => fresh ?_
          obtain ⟨c, inRest, inCopies⟩ := List.mem_flatMap.mp found
          rw [List.eq_of_mem_replicate inCopies]
          exact List.mem_map_of_mem inRest
        simp [none]
      · have inRest : comp ∈ rest := (List.mem_cons.mp member).resolve_left (Ne.symm same)
        have different : first.id ≠ comp.id := fun equal =>
          fresh (equal ▸ List.mem_map_of_mem inRest)
        simp [ih distinct inRest, different]
  have distinct : (g.components.map Component.id).Nodup := by
    rw [h.map_id]
    exact List.nodup_range
  rw [← h i comp present]
  exact counted g.components distinct (mem_components.mpr ⟨i, present⟩)

theorem mem_dependents (h : g.Numbered) {i id : ComponentId} (member : i ∈ g.dependents id) :
    ∃ comp, g.get? i = some comp := by
  obtain ⟨comp, inGraph, inCopies⟩ := List.mem_flatMap.mp member
  obtain ⟨j, present⟩ := mem_components.mp inGraph
  rw [List.eq_of_mem_replicate inCopies, h j comp present]
  exact ⟨comp, present⟩

/-- The invariant of an ordering: every counter is the number of dependencies not yet placed, and
`ready` holds the components that wait for none and are not placed themselves. -/
structure Counts (g : DependencyGraph) (p : Placement) : Prop where
  counted : ∀ i comp, g.get? i = some comp →
    p.waiting[i]? = some (comp.dependencies.countP (· ∉ p.placed))
  inside : ∀ i, (p.waiting[i]?).isSome → (g.get? i).isSome
  ascending : p.ready.Pairwise (· < ·)
  ready : ∀ i, i ∈ p.ready ↔ i ∉ p.placed ∧ p.waiting[i]? = some 0
  settled : ∀ i ∈ p.placed, p.waiting[i]? = some 0
  distinct : p.placed.Nodup

theorem Counts.start (h : g.Numbered) : g.Counts g.start := by
  have waiting : ∀ i, g.start.waiting[i]? = (g.get? i).map (·.dependencies.length) := by
    intro i
    simp [DependencyGraph.start, get?]
  refine ⟨fun i comp present => ?_, fun i found => ?_, ?_, fun i => ?_, ?_, List.nodup_nil⟩
  · rw [waiting, present]
    simp [DependencyGraph.start]
  · simpa [waiting] using found
  · have sorted : (g.components.map Component.id).Pairwise (· < ·) := by
      rw [h.map_id]
      exact List.pairwise_lt_range
    exact sorted.sublist (List.filter_sublist.map Component.id)
  · change i ∈ (g.components.filter fun c => g.start.waiting[c.id]? = some 0).map Component.id ↔ _
    simp only [List.mem_map, List.mem_filter, decide_eq_true_eq]
    constructor
    · rintro ⟨comp, ⟨_, zero⟩, rfl⟩
      exact ⟨by simp [DependencyGraph.start], zero⟩
    · rintro ⟨_, zero⟩
      have found := zero
      rw [waiting] at found
      obtain ⟨comp, present, _⟩ := Option.map_eq_some_iff.mp found
      have isId := h i comp present
      exact ⟨comp, ⟨mem_components.mpr ⟨i, present⟩, isId ▸ zero⟩, isId⟩
  · simp [DependencyGraph.start]

theorem countP_not_mem_append (deps : List ComponentId) {placed : List ComponentId}
    {id : ComponentId} (new : id ∉ placed) :
    deps.countP (· ∉ placed ++ [id]) = deps.countP (· ∉ placed) - deps.count id ∧
      deps.count id ≤ deps.countP (· ∉ placed) := by
  induction deps with
  | nil => simp
  | cons d rest ih =>
    simp only [List.countP_cons, List.count_cons, List.mem_append, List.mem_singleton] at ih ⊢
    by_cases same : d = id
    · subst same
      simp only [new, or_true, not_true, decide_false, Bool.false_eq_true, if_false,
        beq_self_eq_true, not_false_eq_true, decide_true, if_true]
      omega
    · have other : (d == id) = false := by simpa using same
      simp only [other, same, or_false, Bool.false_eq_true, if_false]
      split <;> omega

section Place

variable {p : Placement} {id : ComponentId} {others : List ComponentId}

theorem Counts.isReady (h : g.Counts p) (ready : p.ready = id :: others) :
    id ∉ p.placed ∧ p.waiting[id]? = some 0 :=
  (h.ready id).mp (ready ▸ List.mem_cons_self)

/-- No counter is released below zero, and none that does not exist. -/
theorem Counts.enough (h : g.Counts p) (numbered : g.Numbered) (ready : p.ready = id :: others)
    {i : ComponentId} {left : Nat} (found : p.waiting[i]? = some left) :
    (g.dependents id).count i ≤ left ∧
      ∀ comp, g.get? i = some comp →
        left - (g.dependents id).count i = comp.dependencies.countP (· ∉ p.placed ++ [id]) := by
  obtain ⟨comp, present⟩ := Option.isSome_iff_exists.mp (h.inside i (by simp [found]))
  have left_eq := Option.some.inj (found.symm.trans (h.counted i comp present))
  obtain ⟨fewer, bound⟩ := countP_not_mem_append comp.dependencies (h.isReady ready).1
  rw [count_dependents numbered present, left_eq]
  refine ⟨bound, fun other present' => ?_⟩
  cases present.symm.trans present'
  exact fewer.symm

/-- What placing the smallest ready component does to every part of the state. -/
theorem Counts.place_effects (h : g.Counts p) (numbered : g.Numbered)
    (ready : p.ready = id :: others) :
    (g.place p id others).placed = p.placed ++ [id] ∧
    (∀ i, (g.place p id others).waiting[i]? =
      p.waiting[i]?.map fun left => left - (g.dependents id).count i) ∧
    (g.place p id others).ready.Pairwise (· < ·) ∧
    ∀ i, i ∈ (g.place p id others).ready ↔
      i ∈ others ∨ i ∈ g.dependents id ∧ p.waiting[i]? = some ((g.dependents id).count i) := by
  have ascending := h.ascending
  rw [ready] at ascending
  refine foldl_release (g.dependents id) { p with ready := others, placed := p.placed ++ [id] }
    (fun i member => ?_) (List.pairwise_cons.mp ascending).2
  obtain ⟨comp, present⟩ := mem_dependents numbered member
  exact ⟨_, h.counted i comp present, (h.enough numbered ready (h.counted i comp present)).1⟩

/-- A component becomes ready when the last dependency it waits for is placed. -/
theorem Counts.mem_ready_place (h : g.Counts p) (numbered : g.Numbered)
    (ready : p.ready = id :: others) (i : ComponentId) :
    (i ∈ others ∨ i ∈ g.dependents id ∧ p.waiting[i]? = some ((g.dependents id).count i)) ↔
      i ∉ p.placed ++ [id] ∧
        (p.waiting[i]?.map fun left => left - (g.dependents id).count i) = some 0 := by
  obtain ⟨_, zero⟩ := h.isReady ready
  constructor
  · rintro (member | ⟨member, last⟩)
    · obtain ⟨unplaced, none⟩ := (h.ready i).mp (ready ▸ List.mem_cons_of_mem _ member)
      have ascending := h.ascending
      rw [ready] at ascending
      have larger := (List.pairwise_cons.mp ascending).1 i member
      exact ⟨by simp [unplaced, Nat.ne_of_gt larger], by simp [none]⟩
    · have positive := List.count_pos_iff.mpr member
      have waits : p.waiting[i]? ≠ some 0 := by
        rw [last]
        simpa using Nat.ne_of_gt positive
      have unplaced : i ∉ p.placed := fun before => waits (h.settled i before)
      have different : i ≠ id := fun same => waits (same ▸ zero)
      exact ⟨by simp [unplaced, different], by simp [last]⟩
  · rintro ⟨unplaced, none⟩
    simp only [List.mem_append, List.mem_singleton, not_or] at unplaced
    obtain ⟨left, found, exhausted⟩ := Option.map_eq_some_iff.mp none
    have bound := (h.enough numbered ready found).1
    have equal : left = (g.dependents id).count i := by omega
    by_cases positive : i ∈ g.dependents id
    · exact .inr ⟨positive, equal ▸ found⟩
    · rw [List.count_eq_zero.mpr positive] at equal
      have wasReady := (h.ready i).mpr ⟨unplaced.1, equal ▸ found⟩
      rw [ready] at wasReady
      exact .inl ((List.mem_cons.mp wasReady).resolve_left unplaced.2)

/-- Placing the smallest ready component keeps the invariant. -/
theorem Counts.place (h : g.Counts p) (numbered : g.Numbered) (ready : p.ready = id :: others) :
    g.Counts (g.place p id others) := by
  obtain ⟨unplaced, zero⟩ := h.isReady ready
  obtain ⟨placed, waiting, sorted, members⟩ := h.place_effects numbered ready
  refine ⟨fun i comp present => ?_, fun i found => ?_, sorted, fun i => ?_, fun i member => ?_, ?_⟩
  · have counted := h.counted i comp present
    rw [waiting, counted, placed, ← (h.enough numbered ready counted).2 comp present]
    rfl
  · rw [waiting, Option.isSome_map] at found
    exact h.inside i found
  · rw [members, placed, waiting]
    exact h.mem_ready_place numbered ready i
  · rw [placed] at member
    have was : p.waiting[i]? = some 0 := by
      rcases List.mem_append.mp member with member | last
      · exact h.settled i member
      · rw [List.mem_singleton.mp last]
        exact zero
    simp [waiting, was]
  · rw [placed]
    refine List.nodup_append.mpr ⟨h.distinct, by simp, fun i member j last => ?_⟩
    rw [List.mem_singleton.mp last]
    exact fun same => unplaced (same ▸ member)

end Place

/-- What is placed has a component. -/
theorem Counts.placed_lt {p : Placement} (h : g.Counts p) {i : ComponentId}
    (member : i ∈ p.placed) : i < g.size := by
  obtain ⟨comp, present⟩ := Option.isSome_iff_exists.mp (h.inside i (by simp [h.settled i member]))
  exact (List.getElem?_eq_some_iff.mp present).1

/-- A whole ordering keeps the invariant, and with one turn for each component it only ends when
none is ready. -/
theorem placeFrom_counts (numbered : g.Numbered) :
    ∀ (count : Nat) (p : Placement), g.Counts p →
      g.Counts (g.placeFrom count p) ∧
        (g.size ≤ p.placed.length + count → (g.placeFrom count p).ready = [])
  | 0, p, h => by
    refine ⟨h, fun full => List.eq_nil_iff_forall_not_mem.mpr fun i member => ?_⟩
    obtain ⟨unplaced, zero⟩ := (h.ready i).mp member
    obtain ⟨comp, present⟩ := Option.isSome_iff_exists.mp (h.inside i (by simp [zero]))
    have distinct : (i :: p.placed).Nodup := List.nodup_cons.mpr ⟨unplaced, h.distinct⟩
    have subset : i :: p.placed ⊆ List.range g.size := by
      refine List.cons_subset.mpr ⟨?_, fun j member => List.mem_range.mpr (h.placed_lt member)⟩
      exact List.mem_range.mpr (List.getElem?_eq_some_iff.mp present).1
    have bound := (List.subperm_of_subset distinct subset).length_le
    simp only [List.length_cons, List.length_range] at bound
    omega
  | count + 1, p, h => by
    cases ready : p.ready with
    | nil => simp [placeFrom, ready, h]
    | cons id others =>
      simp only [placeFrom, ready]
      obtain ⟨counts, ended⟩ := placeFrom_counts numbered count _ (h.place numbered ready)
      refine ⟨counts, fun full => ended ?_⟩
      rw [(h.place_effects numbered ready).1, List.length_append, List.length_singleton]
      omega

section Descending

variable (numbered : g.Numbered)
  (smaller : ∀ id comp, g.get? id = some comp → ∀ d ∈ comp.dependencies, d < id)

include numbered smaller

/-- Where dependencies have smaller ids, the next to place is always the next id. -/
theorem placeFrom_range (count : Nat) (p : Placement) (h : g.Counts p) (k : Nat)
    (placed : p.placed = List.range k) (rest : k + count = g.size) :
    (g.placeFrom count p).placed = List.range g.size := by
  induction count generalizing p k with
  | zero => simpa [placeFrom, ← rest] using placed
  | succ count ih =>
    have bound : k < g.components.length := by
      unfold size at rest
      omega
    have present : g.get? k = some g.components[k] := List.getElem?_eq_getElem bound
    have next : k ∈ p.ready := by
      refine (h.ready k).mpr ⟨by simp [placed], ?_⟩
      rw [h.counted k _ present, List.countP_eq_zero.mpr]
      intro d member
      simpa [placed] using smaller k _ present d member
    cases ready : p.ready with
    | nil => simp [ready] at next
    | cons id others =>
      have first : id = k := by
        have unplaced := (h.isReady ready).1
        have ascending := h.ascending
        rw [ready] at ascending next
        rw [placed, List.mem_range] at unplaced
        rcases List.mem_cons.mp next with same | member
        · exact same.symm
        · exact absurd ((List.pairwise_cons.mp ascending).1 k member) unplaced
      subst first
      simp only [placeFrom, ready]
      refine ih _ (h.place numbered ready) (id + 1) ?_ (by omega)
      rw [(h.place_effects numbered ready).1, placed, List.range_succ]

theorem order_eq_range : g.order = .ok (List.range g.size) := by
  have placed := placeFrom_range numbered smaller g.size g.start (.start numbered) 0 rfl (by simp)
  simp [order, placed]

end Descending

end DependencyGraph

end MiddlewareStack
