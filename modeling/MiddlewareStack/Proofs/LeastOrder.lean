import Mathlib.Data.List.Perm.Subperm
import Mathlib.Data.Fintype.EquivFin
import Mathlib.Logic.Relation
import Mathlib.Order.WellFounded
import MiddlewareStack.Proofs.GraphChanges

/-!
# The order of any graph

The edges of a graph may repeat, close cycles and lead to components that do not exist. Placing the
smallest ready component first gives the least of all orders in which dependencies come first. What
cannot be placed is just what has a cycle or a missing component below it.
-/

namespace MiddlewareStack.DependencyGraph

open Relation

variable {g : DependencyGraph} {p : Placement} {i d : ComponentId} {ids : List ComponentId}

/-- `i` names `d` among its dependencies. -/
def Needs (g : DependencyGraph) (i d : ComponentId) : Prop :=
  d ∈ g.adjacent i

theorem needs_iff : g.Needs i d ↔ ∃ comp, g.get? i = some comp ∧ d ∈ comp.dependencies := by
  unfold Needs adjacent
  cases g.get? i <;> simp

/-- Every id stands behind all that it needs. -/
def InOrder (g : DependencyGraph) (ids : List ComponentId) : Prop :=
  ∀ before i later, ids = before ++ i :: later → ∀ d, g.Needs i d → d ∈ before

/-- A sequence in which every component comes once, behind all it depends on. -/
structure IsOrder (g : DependencyGraph) (ids : List ComponentId) : Prop where
  once : ids.Nodup
  all : ∀ i, i ∈ ids ↔ (g.get? i).isSome
  inOrder : g.InOrder ids

/-- A cycle or a component that does not exist is reached from `i`. -/
def Stuck (g : DependencyGraph) (i : ComponentId) : Prop :=
  ∃ other, ReflTransGen g.Needs i other ∧
    (TransGen g.Needs other other ∨ g.get? other = none)

/-! ## What is in order -/

theorem InOrder.concat (h : g.InOrder ids) (needs : ∀ d, g.Needs i d → d ∈ ids) :
    g.InOrder (ids ++ [i]) := by
  intro before other later split
  rcases List.eq_nil_or_concat later with rfl | ⟨rest, last, rfl⟩
  · obtain ⟨rfl, rfl⟩ : ids = before ∧ i = other := by simpa using List.append_inj' split rfl
    exact needs
  · rw [List.concat_eq_append, ← List.cons_append, ← List.append_assoc] at split
    exact h before other rest (List.append_inj' split rfl).1

/-- What a member needs is a member, and comes earlier. -/
theorem InOrder.earlier (h : g.InOrder ids) (once : ids.Nodup) (member : i ∈ ids)
    (needs : g.Needs i d) : d ∈ ids ∧ ids.idxOf d < ids.idxOf i := by
  obtain ⟨before, later, rfl⟩ := List.append_of_mem member
  have inBefore := h before i later rfl d needs
  have new : i ∉ before := fun old =>
    (List.nodup_append.mp once).2.2 i old i List.mem_cons_self rfl
  refine ⟨List.mem_append_left _ inBefore, ?_⟩
  rw [List.idxOf_append_of_mem inBefore, List.idxOf_append_of_notMem new, List.idxOf_cons_self]
  exact List.idxOf_lt_length_iff.mpr inBefore

theorem InOrder.earlier_of_transGen (h : g.InOrder ids) (once : ids.Nodup) (member : i ∈ ids)
    (path : TransGen g.Needs i d) : d ∈ ids ∧ ids.idxOf d < ids.idxOf i := by
  induction path with
  | single needs => exact h.earlier once member needs
  | tail _ needs ih =>
    obtain ⟨inside, less⟩ := h.earlier once ih.1 needs
    exact ⟨inside, Nat.lt_trans less ih.2⟩

/-- Nothing that is in order is stuck. -/
theorem InOrder.not_stuck (h : g.InOrder ids) (once : ids.Nodup)
    (exist : ∀ i ∈ ids, (g.get? i).isSome) (member : i ∈ ids) : ¬g.Stuck i := by
  rintro ⟨other, path, trouble⟩
  have inside : other ∈ ids := by
    rcases reflTransGen_iff_eq_or_transGen.mp path with rfl | path
    · exact member
    · exact (h.earlier_of_transGen once member path).1
  rcases trouble with cycle | missing
  · exact Nat.lt_irrefl _ (h.earlier_of_transGen once inside cycle).2
  · simpa [missing] using exist other inside

/-! ## One placement after the other -/

theorem Counts.exist (h : g.Counts p) (member : i ∈ p.placed) : (g.get? i).isSome :=
  h.inside i (by simp [h.settled i member])

/-- A component that waits for nothing needs what is placed, and nothing else. -/
theorem Counts.waiting_zero_iff (h : g.Counts p) (isThere : (g.get? i).isSome) :
    p.waiting[i]? = some 0 ↔ ∀ d, g.Needs i d → d ∈ p.placed := by
  obtain ⟨comp, present⟩ := Option.isSome_iff_exists.mp isThere
  simp [h.counted i comp present, needs_iff, present, List.countP_eq_zero]

theorem Counts.mem_ready (h : g.Counts p) :
    i ∈ p.ready ↔ i ∉ p.placed ∧ (g.get? i).isSome ∧ ∀ d, g.Needs i d → d ∈ p.placed := by
  rw [h.ready i]
  refine and_congr_right fun _ => ⟨fun zero => ?_, fun ⟨isThere, needs⟩ => ?_⟩
  · have isThere := h.inside i (by simp [zero])
    exact ⟨isThere, (h.waiting_zero_iff isThere).mp zero⟩
  · exact (h.waiting_zero_iff isThere).mpr needs

/-- Every counter that placing a component counts down is there when its turn comes, and above
zero. -/
def CountsDown (g : DependencyGraph) (p : Placement) (id : ComponentId)
    (others : List ComponentId) : Prop :=
  ∀ before dependent later, g.dependents id = before ++ dependent :: later →
    ∃ left, (before.foldl Placement.release
      { p with ready := others, placed := p.placed ++ [id] }).waiting[dependent]? = some (left + 1)

section Place

variable {id : ComponentId} {others : List ComponentId} (numbered : g.Numbered)

include numbered

theorem Counts.countsDown (h : g.Counts p) (ready : p.ready = id :: others) :
    g.CountsDown p id others := by
  intro before dependent later split
  have ascending := h.ascending
  rw [ready] at ascending
  have found : ∀ i ∈ g.dependents id, ∃ left, p.waiting[i]? = some left ∧
      (g.dependents id).count i ≤ left := by
    intro i member
    obtain ⟨comp, present⟩ := mem_dependents numbered member
    have counted := h.counted i comp present
    exact ⟨_, counted, (h.enough numbered ready counted).1⟩
  have fewer : ∀ i, before.count i ≤ (g.dependents id).count i := by
    intro i
    rw [split, List.count_append]
    exact Nat.le_add_right ..
  obtain ⟨_, waiting, _⟩ := foldl_release before
    { p with ready := others, placed := p.placed ++ [id] } (fun i member => by
      obtain ⟨left, counted, enough⟩ := found i (split ▸ List.mem_append_left _ member)
      exact ⟨left, counted, Nat.le_trans (fewer i) enough⟩) (List.pairwise_cons.mp ascending).2
  obtain ⟨left, counted, enough⟩ := found dependent (by simp [split])
  have more : before.count dependent < (g.dependents id).count dependent := by
    rw [split, List.count_append, List.count_cons_self]
    omega
  refine ⟨left - before.count dependent - 1, ?_⟩
  rw [waiting, counted, Option.map_some]
  congr 1
  omega

theorem Counts.place_inOrder (h : g.Counts p) (inOrder : g.InOrder p.placed)
    (ready : p.ready = id :: others) : g.InOrder (g.place p id others).placed := by
  rw [(h.place_effects numbered ready).1]
  exact inOrder.concat (h.mem_ready.mp (ready ▸ List.mem_cons_self)).2.2

/-- What each placement keeps, all of them together keep. -/
theorem placeFrom_keeps {P : Placement → Prop}
    (step : ∀ p id others, g.Counts p → p.ready = id :: others → P p → P (g.place p id others)) :
    ∀ (count : Nat) (p : Placement), g.Counts p → P p → P (g.placeFrom count p)
  | 0, _, _, before => before
  | count + 1, p, h, before => by
    cases ready : p.ready with
    | nil => simpa [placeFrom, ready] using before
    | cons id others =>
      simp only [placeFrom, ready]
      exact placeFrom_keeps step count _ (h.place numbered ready) (step p id others h ready before)

theorem placeFrom_goesOn (count : Nat) (h : g.Counts p) :
    p.placed <+: (g.placeFrom count p).placed := by
  refine placeFrom_keeps (P := fun q => p.placed <+: q.placed) numbered ?_ count p h
    List.prefix_rfl
  intro q id others counts ready before
  rw [(counts.place_effects numbered ready).1]
  exact before.trans (List.prefix_append ..)

theorem placeFrom_inOrder (count : Nat) (h : g.Counts p) (before : g.InOrder p.placed) :
    g.InOrder (g.placeFrom count p).placed := by
  refine placeFrom_keeps (P := fun q => g.InOrder q.placed) numbered ?_ count p h before
  exact fun _ _ _ counts ready before => counts.place_inOrder numbered before ready

/-- However another order goes on from the same beginning, placing the smallest ready component each
time does not go on with anything greater. -/
theorem placeFrom_least : ∀ (count : Nat) (p : Placement) (rest : List ComponentId),
    g.Counts p → g.IsOrder (p.placed ++ rest) →
      ∃ tail, (g.placeFrom count p).placed = p.placed ++ tail ∧
        (tail = rest ∨ List.Lex (· < ·) tail rest)
  | 0, p, rest, _, _ => by
    refine ⟨[], by simp [placeFrom], ?_⟩
    cases rest with
    | nil => exact .inl rfl
    | cons => exact .inr .nil
  | count + 1, p, rest, h, isOrder => by
    cases ready : p.ready with
    | nil =>
      refine ⟨[], by simp [placeFrom, ready], ?_⟩
      cases rest with
      | nil => exact .inl rfl
      | cons => exact .inr .nil
    | cons id others =>
      obtain ⟨unplaced, isThere, _⟩ := h.mem_ready.mp (ready ▸ List.mem_cons_self : id ∈ p.ready)
      cases rest with
      | nil => exact absurd ((isOrder.all id).mpr isThere) (by simpa using unplaced)
      | cons next more =>
        -- what the other order has next was ready here as well
        have isReady : next ∈ p.ready := by
          refine h.mem_ready.mpr ⟨fun old => ?_, (isOrder.all next).mp (by simp),
            isOrder.inOrder p.placed next more rfl⟩
          exact (List.nodup_append.mp isOrder.once).2.2 next old next List.mem_cons_self rfl
        have ascending := h.ascending
        rw [ready] at isReady ascending
        have placed := (h.place_effects numbered ready).1
        simp only [placeFrom, ready]
        rcases List.mem_cons.mp isReady with rfl | later
        · have same : g.IsOrder ((g.place p next others).placed ++ more) := by
            rw [placed, List.append_assoc]
            exact isOrder
          obtain ⟨tail, goesOn, least⟩ :=
            placeFrom_least count _ more (h.place numbered ready) same
          refine ⟨next :: tail, by rw [goesOn, placed, List.append_assoc]; rfl, ?_⟩
          exact least.imp (congrArg _) .cons
        · obtain ⟨tail, goesOn⟩ := placeFrom_goesOn numbered count (h.place numbered ready)
          refine ⟨id :: tail, by rw [← goesOn, placed, List.append_assoc]; rfl, .inr (.rel ?_)⟩
          exact (List.pairwise_cons.mp ascending).1 next later

end Place

/-! ## When no component is ready any more -/

section Last

variable (h : g.Counts p) (none : p.ready = [])

include h none

/-- What is not placed needs something else that is not. -/
theorem Counts.needs_unplaced (isThere : (g.get? i).isSome) (unplaced : i ∉ p.placed) :
    ∃ d, g.Needs i d ∧ d ∉ p.placed := by
  have notReady : i ∉ p.ready := none ▸ List.not_mem_nil
  rw [h.mem_ready] at notReady
  push Not at notReady
  exact notReady unplaced isThere

/-- Descending from what is not placed, one comes to a missing component or back to where one has
been. -/
theorem Counts.stuck_of_unplaced (unplaced : i ∉ p.placed) : g.Stuck i := by
  by_contra free
  have inside : ∀ {j}, ReflTransGen g.Needs i j → (g.get? j).isSome := fun {j} path => by
    by_contra missing
    exact free ⟨j, path, .inr (by simpa using missing)⟩
  let below : Fin g.size → Fin g.size → Prop := fun d j =>
    ReflTransGen g.Needs i j ∧ TransGen g.Needs j d
  have : IsTrans (Fin g.size) below :=
    ⟨fun _ _ _ first second => ⟨second.1, second.2.trans first.2⟩⟩
  have : Std.Irrefl below := ⟨fun j cycle => free ⟨j, cycle.1, .inl cycle.2⟩⟩
  have descends : WellFounded below := Finite.wellFounded_of_trans_of_irrefl below
  have bound : ∀ {j}, ReflTransGen g.Needs i j → j < g.size := fun path => by
    obtain ⟨comp, present⟩ := Option.isSome_iff_exists.mp (inside path)
    exact (List.getElem?_eq_some_iff.mp present).1
  obtain ⟨last, ⟨path, isLeft⟩, least⟩ := descends.has_min
    {j | ReflTransGen g.Needs i j ∧ (j : ComponentId) ∉ p.placed}
    ⟨⟨i, bound .refl⟩, .refl, unplaced⟩
  obtain ⟨d, needs, isLeft'⟩ := h.needs_unplaced none (inside path) isLeft
  exact least ⟨d, bound (path.tail needs)⟩ ⟨path.tail needs, isLeft'⟩ ⟨path, .single needs⟩

end Last

theorem Counts.stuck_iff (h : g.Counts p) (none : p.ready = []) (inOrder : g.InOrder p.placed) :
    g.Stuck i ↔ i ∉ p.placed :=
  ⟨fun stuck member => inOrder.not_stuck h.distinct (fun _ => h.exist) member stuck,
    h.stuck_of_unplaced none⟩

/-- As many are placed as there are components exactly if each of them is. -/
theorem Counts.complete_iff (h : g.Counts p) :
    g.size ≤ p.placed.length ↔ ∀ i, (g.get? i).isSome → i ∈ p.placed := by
  have exist : ∀ i, (g.get? i).isSome ↔ i ∈ List.range g.size := by simp [get?, size]
  have subset : p.placed ⊆ List.range g.size := fun i member => (exist i).mp (h.exist member)
  have distinct := List.subperm_of_subset h.distinct subset
  constructor
  · intro enough i isThere
    have same := distinct.perm_of_length_le (by simpa using enough)
    exact same.mem_iff.mpr ((exist i).mp isThere)
  · intro all
    have others : List.range g.size ⊆ p.placed := fun i member => all i ((exist i).mpr member)
    simpa using (List.subperm_of_subset List.nodup_range others).length_le

section Order

variable (numbered : g.Numbered)

include numbered

/-- How placing ends, the bound on its turns included. -/
theorem last_spec : g.Counts (g.placeFrom g.size g.start) ∧
    (g.placeFrom g.size g.start).ready = [] ∧ g.InOrder (g.placeFrom g.size g.start).placed := by
  have first := Counts.start numbered
  obtain ⟨counts, ended⟩ := placeFrom_counts numbered g.size g.start first
  refine ⟨counts, ended (Nat.le_add_left ..), placeFrom_inOrder numbered g.size first ?_⟩
  intro before i later split
  simp [start] at split

theorem order_isOrder (ordered : g.order = .ok ids) :
    g.IsOrder ids ∧ ∀ other, g.IsOrder other → ids = other ∨ List.Lex (· < ·) ids other := by
  obtain ⟨counts, none, inOrder⟩ := last_spec numbered
  unfold order at ordered
  dsimp only at ordered
  split at ordered
  · cases ordered
  · next complete =>
    cases ordered
    have all := counts.complete_iff.mp (Nat.not_lt.mp complete)
    refine ⟨⟨counts.distinct, fun i => ⟨counts.exist, all i⟩, inOrder⟩, fun other isOrder => ?_⟩
    obtain ⟨tail, goesOn, least⟩ :=
      placeFrom_least numbered g.size g.start other (.start numbered) isOrder
    rw [goesOn]
    exact least

/-- What is reported are the stuck components, in the order of their ids. -/
theorem order_error {e : CompileError} (failed : g.order = .error e) :
    ∃ first rest, (first :: rest).Sublist g.components ∧
      (∀ comp ∈ g.components, comp ∈ first :: rest ↔ g.Stuck comp.id) ∧
      e = .cyclicDependency first.capability ((first :: rest).map Component.capability) := by
  obtain ⟨counts, none, inOrder⟩ := last_spec numbered
  unfold order at failed
  dsimp only at failed
  split at failed
  · next incomplete =>
    have left : ¬∀ i, (g.get? i).isSome → i ∈ (g.placeFrom g.size g.start).placed := fun all =>
      absurd (counts.complete_iff.mpr all) (Nat.not_le.mpr incomplete)
    generalize g.placeFrom g.size g.start = last at *
    have waits : ∀ comp ∈ g.components, 0 < last.waiting[comp.id]?.getD 0 ↔ g.Stuck comp.id := by
      intro comp member
      obtain ⟨i, present⟩ := mem_components.mp member
      obtain rfl := numbered i comp present
      rw [counts.stuck_iff none inOrder]
      have counted := counts.counted comp.id comp present
      have zero : last.waiting[comp.id]? = some 0 ↔ comp.id ∈ last.placed := by
        refine ⟨fun zero => ?_, counts.settled comp.id⟩
        by_contra unplaced
        have isReady := (counts.ready comp.id).mpr ⟨unplaced, zero⟩
        rw [none] at isReady
        cases isReady
      rw [← zero, counted, Option.getD_some, Option.some.injEq]
      exact Nat.pos_iff_ne_zero
    have listed : ∀ comp ∈ g.components,
        (comp ∈ g.components.filter fun c => 0 < last.waiting[c.id]?.getD 0) ↔
          g.Stuck comp.id := by
      intro comp member
      rw [List.mem_filter, decide_eq_true_eq, waits comp member]
      exact and_iff_right member
    cases stuck : g.components.filter fun c => 0 < last.waiting[c.id]?.getD 0 with
    | nil =>
      refine absurd (fun i isThere => ?_) left
      obtain ⟨comp, present⟩ := Option.isSome_iff_exists.mp isThere
      have member := mem_components.mpr ⟨i, present⟩
      obtain rfl := numbered i comp present
      by_contra unplaced
      have isStuck := (listed comp member).mpr ((counts.stuck_iff none inOrder).mpr unplaced)
      rw [stuck] at isStuck
      cases isStuck
    | cons first rest =>
      rw [stuck] at listed
      refine ⟨first, rest, stuck ▸ List.filter_sublist, listed, ?_⟩
      simp only [stillWaiting, stuck, Except.error.injEq] at failed
      exact failed.symm
  · cases failed

/-- Every dependency exists and no component depends on itself, through others or not. -/
theorem order_succeeds_iff : (∃ ids, g.order = .ok ids) ↔
    (∀ i d, g.Needs i d → (g.get? d).isSome) ∧ ∀ i, ¬TransGen g.Needs i i := by
  constructor
  · rintro ⟨ids, ordered⟩
    have isOrder := (order_isOrder numbered ordered).1
    have inside : ∀ {i d}, g.Needs i d → i ∈ ids := by
      intro i d needs
      obtain ⟨comp, present, _⟩ := needs_iff.mp needs
      exact (isOrder.all i).mpr (by simp [present])
    refine ⟨fun i d needs => ?_, fun i cycle => ?_⟩
    · exact (isOrder.all d).mp (isOrder.inOrder.earlier isOrder.once (inside needs) needs).1
    · obtain ⟨_, needs, _⟩ := TransGen.head'_iff.mp cycle
      have earlier := isOrder.inOrder.earlier_of_transGen isOrder.once (inside needs) cycle
      exact Nat.lt_irrefl _ earlier.2
  · rintro ⟨exist, acyclic⟩
    cases ordered : g.order with
    | ok ids => exact ⟨ids, rfl⟩
    | error e =>
      obtain ⟨first, rest, sublist, stuck, _⟩ := order_error numbered ordered
      have member := sublist.subset List.mem_cons_self
      obtain ⟨other, path, cycle | missing⟩ := (stuck first member).mp List.mem_cons_self
      · exact absurd cycle (acyclic other)
      · rcases ReflTransGen.cases_tail path with rfl | ⟨before, _, needs⟩
        · obtain ⟨i, present⟩ := mem_components.mp member
          obtain rfl := numbered i first present
          cases present.symm.trans missing
        · simpa [missing] using exist before other needs

end Order

/-- The order of any graph. It exists exactly if every dependency does and none is circular, and is
then the least of all orders. Otherwise the components are reported, by their ids, that reach a
cycle or a missing component. While components are placed, each counter that is counted down is
there and above zero, and no component waits for its turn in the end. -/
theorem order_spec (root : QualifiedName) (changes : List GraphChange) :
    let g := ofChanges root changes
    ((∃ ids, g.order = .ok ids) ↔
      (∀ i d, g.Needs i d → (g.get? d).isSome) ∧ ∀ i, ¬TransGen g.Needs i i) ∧
    (∀ ids, g.order = .ok ids →
      g.IsOrder ids ∧ ∀ other, g.IsOrder other → ids = other ∨ List.Lex (· < ·) ids other) ∧
    (∀ e, g.order = .error e → ∃ first rest, (first :: rest).Sublist g.components ∧
      ((first :: rest).map Component.id).Pairwise (· < ·) ∧
      (∀ comp ∈ g.components, comp ∈ first :: rest ↔ g.Stuck comp.id) ∧
      e = .cyclicDependency first.capability ((first :: rest).map Component.capability)) ∧
    (∀ comp ∈ g.components, comp.id < g.size) ∧
    (∀ count id others, (g.placeFrom count g.start).ready = id :: others →
      id < g.size ∧ g.CountsDown (g.placeFrom count g.start) id others) ∧
    (g.placeFrom g.size g.start).ready = [] := by
  intro g
  have numbered : g.Numbered := numbered_ofChanges root changes
  have bound : ∀ {i comp}, g.get? i = some comp → i < g.size := fun present =>
    (List.getElem?_eq_some_iff.mp present).1
  refine ⟨order_succeeds_iff numbered, fun ids => order_isOrder numbered, fun e failed => ?_,
    fun comp member => ?_, fun count id others ready => ?_, (last_spec numbered).2.1⟩
  · obtain ⟨first, rest, sublist, stuck, reported⟩ := order_error numbered failed
    refine ⟨first, rest, sublist, List.Pairwise.sublist (sublist.map Component.id) ?_, stuck,
      reported⟩
    rw [numbered.map_id]
    exact List.pairwise_lt_range
  · obtain ⟨i, present⟩ := mem_components.mp member
    exact (numbered i comp present).symm ▸ bound present
  · have counts := (placeFrom_counts numbered count g.start (.start numbered)).1
    obtain ⟨_, isThere, _⟩ := counts.mem_ready.mp (ready ▸ List.mem_cons_self)
    obtain ⟨comp, present⟩ := Option.isSome_iff_exists.mp isThere
    exact ⟨bound present, counts.countsDown numbered ready⟩

def linked (name : String) (dependencies : List ComponentId) : GraphChange :=
  .add { capability := { package := "self", name }, implementation := default
         invocation := default, bundle := none } dependencies

/-- A dependency may be named twice. One on the component itself, or on nothing, holds up all that
need it. -/
example :
    (ofChanges default [linked "A" [2, 2], linked "B" [], linked "C" []]).order = .ok [1, 2, 0] ∧
    (ofChanges default [linked "A" [1], linked "B" [1], linked "C" [], linked "D" [7]]).order =
      .error (.cyclicDependency ⟨"self", "A"⟩ [⟨"self", "A"⟩, ⟨"self", "B"⟩, ⟨"self", "D"⟩]) := by
  decide

end MiddlewareStack.DependencyGraph
