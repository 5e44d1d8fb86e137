import Mathlib.Data.List.Basic
import MiddlewareStack.Executor

/-!
# Wiring

An executor that was created holds what was supplied and nothing else, for every step of its
pipeline and for no other capability.
-/

namespace MiddlewareStack

theorem Pipeline.step?_isSome {p : Pipeline} {capability : String} :
    (p.step? capability).isSome ↔ capability ∈ p.invocationOrder := by
  simp [step?, invocationOrder, List.find?_isSome]

namespace Executor

variable {Instance : Type} {p : Pipeline} {supplied : List (String × Instance)}

/-- What wiring finds under a capability is what was supplied under it, or was there before. -/
theorem wire_spec {wired all : KeyedMap Instance} (h : wire p supplied wired = .ok all) :
    (∀ pair ∈ supplied, pair.1 ∈ p.invocationOrder) ∧
      ∀ capability component, all.find? capability = some component ↔
        (capability, component) ∈ supplied ∨ wired.find? capability = some component := by
  induction supplied generalizing wired with
  | nil =>
    simp only [wire, Except.ok.injEq] at h
    simp [h]
  | cons first rest ih =>
    obtain ⟨key, value⟩ := first
    unfold wire at h
    split at h
    · cases h
    · next known =>
      split at h
      · cases h
      · next new =>
        obtain ⟨belong, found⟩ := ih h
        have isStep : key ∈ p.invocationOrder := by
          rw [← Pipeline.step?_isSome, Option.isSome_iff_ne_none]
          simpa using known
        have unwired : wired.find? key = none := by
          simpa [KeyedMap.contains] using new
        refine ⟨by simpa [isStep] using belong, fun capability component => ?_⟩
        rw [found, KeyedMap.find?_insert, List.mem_cons, Prod.mk.injEq]
        by_cases same : capability = key
        · subst same
          simp only [if_true, Option.some.injEq, true_and, unwired, reduceCtorEq, or_false]
          exact or_comm.trans (or_congr_left eq_comm)
        · simp [same]

/-- An accepted executor, seen from outside. -/
structure Wired (e : Executor Instance) (p : Pipeline) (supplied : List (String × Instance)) :
    Prop where
  pipeline : e.pipeline = p
  supplied : ∀ capability component,
    e.components.find? capability = some component ↔ (capability, component) ∈ supplied
  exactly : ∀ capability,
    (e.components.find? capability).isSome ↔ capability ∈ p.invocationOrder

theorem create_wired {e : Executor Instance} (h : create p supplied = .ok e) :
    e.Wired p supplied := by
  unfold create at h
  split at h
  · cases h
  · next components wired =>
    obtain ⟨belong, found⟩ := wire_spec wired
    split at h
    · cases h
    · next complete =>
      cases h
      refine ⟨rfl, fun capability component => by simpa using found capability component,
        fun capability => ⟨fun present => ?_, fun member => ?_⟩⟩
      · obtain ⟨component, isWired⟩ := Option.isSome_iff_exists.mp present
        exact belong _ (((found capability component).mp isWired).resolve_right (by simp))
      · obtain ⟨step, inSteps, rfl⟩ := List.mem_map.mp member
        rw [Option.isSome_iff_ne_none]
        simpa [KeyedMap.contains] using List.find?_eq_none.mp complete step inSteps

/-- Instances for different steps that are not wired yet are taken. -/
theorem wire_ok {wired : KeyedMap Instance} (once : (supplied.map Prod.fst).Nodup)
    (belong : ∀ pair ∈ supplied, pair.1 ∈ p.invocationOrder)
    (new : ∀ pair ∈ supplied, wired.find? pair.1 = none) :
    ∃ all, wire p supplied wired = .ok all := by
  induction supplied generalizing wired with
  | nil => exact ⟨wired, rfl⟩
  | cons first rest ih =>
    obtain ⟨key, value⟩ := first
    rw [List.map_cons, List.nodup_cons] at once
    rw [List.forall_mem_cons] at belong new
    have known : (p.step? key).isSome := Pipeline.step?_isSome.mpr belong.1
    have other : ∀ pair ∈ rest, pair.1 ≠ key := fun pair member same =>
      once.1 (List.mem_map.mpr ⟨pair, member, same⟩)
    have unwired : ∀ pair ∈ rest, (wired.insert key value).find? pair.1 = none := by
      intro pair member
      rw [KeyedMap.find?_insert, if_neg (other pair member), new.2 pair member]
    obtain ⟨all, isWired⟩ := ih once.2 belong.2 unwired
    refine ⟨all, ?_⟩
    simpa [wire, Option.isSome_iff_ne_none.mp known, KeyedMap.contains, new.1] using isWired

/-- Where the steps have different capabilities, one instance for each of them is enough. -/
theorem create_ok (distinct : p.invocationOrder.Nodup)
    (each : (supplied.map Prod.fst).Perm p.invocationOrder) : ∃ e, create p supplied = .ok e := by
  obtain ⟨all, isWired⟩ : ∃ all, wire p supplied .empty = .ok all :=
    wire_ok (each.nodup_iff.mpr distinct)
      (fun pair member => each.mem_iff.mp (List.mem_map_of_mem member)) (by simp)
  have complete : p.steps.find? (fun step => !all.contains step.capability) = none := by
    refine List.find?_eq_none.mpr fun step member => ?_
    obtain ⟨pair, isSupplied, same⟩ := List.mem_map.mp
      (each.mem_iff.mpr (List.mem_map_of_mem member : step.capability ∈ p.invocationOrder))
    have found : all.find? step.capability = some pair.2 :=
      ((wire_spec isWired).2 _ _).mpr (.inl (same ▸ isSupplied))
    simp [KeyedMap.contains, found]
  exact ⟨_, by rw [create, isWired]; simp only [complete]; rfl⟩

end Executor

end MiddlewareStack
