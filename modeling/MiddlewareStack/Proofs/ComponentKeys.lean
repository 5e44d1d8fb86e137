import Mathlib.Data.List.Dedup
import MiddlewareStack.Proofs.ContractImpls
import MiddlewareStack.Proofs.Wiring

/-!
# The keys of components

Inside a graph a component is known by its capability, a package and a name; a step and an executor
know it by the written form of both. Two capabilities have one written form where the separator
stands in a name: what follows the package of the one may belong to the package of the other.
-/

namespace MiddlewareStack

namespace QualifiedName

/-- How two names come to have one written form: the package of `b` is longer than that of `a`, by
what stands in front of the separator in the name of `a`. -/
inductive Overlaps (a b : QualifiedName) : Prop
  | word (word : String) (package : b.package = a.package ++ "::" ++ word)
      (name : a.name = word ++ "::" ++ b.name)
  /-- Three colons in a row, of which the first two or the last two separate. -/
  | colon (package : b.package = a.package ++ ":") (name : a.name = ":" ++ b.name)

variable {a b : QualifiedName}

theorem Overlaps.text_eq (h : Overlaps a b) : a.text = b.text := by
  unfold text
  cases h with
  | word word package name => rw [package, name]; simp only [String.append_assoc]
  | colon package name =>
    rw [package, name]
    simp [← String.toList_inj]

theorem Overlaps.ne (h : Overlaps a b) : a ≠ b := by
  rintro rfl
  cases h with
  | word word package _ => simp [← String.toList_inj] at package
  | colon package _ => simp [← String.toList_inj] at package

/-- What overlaps has a colon in its name. -/
theorem Overlaps.colon_mem (h : Overlaps a b) : ':' ∈ a.name.toList := by
  cases h with
  | word word _ name => simp [name]
  | colon _ name => simp [name]

/-- The longer of two packages goes on with what the other name begins with. -/
theorem overlaps_of_longer {between : List Char}
    (longer : b.package.toList = a.package.toList ++ between)
    (rest : ':' :: ':' :: a.name.toList = between ++ ':' :: ':' :: b.name.toList) :
    a = b ∨ Overlaps a b := by
  -- `between` starts with the separator of the other name, or with one half of it
  match between with
  | [] =>
    have package : a.package = b.package := by simp [← String.toList_inj, longer]
    have name : a.name = b.name := by simpa [← String.toList_inj] using rest
    exact .inl (QualifiedName.mk.injEq .. ▸ ⟨package, name⟩)
  | [first] =>
    obtain ⟨rfl, after⟩ := List.cons.inj rest
    have name : a.name = ":" ++ b.name := by simpa [← String.toList_inj] using after
    exact .inr (.colon (by simp [← String.toList_inj, longer]) name)
  | first :: second :: word =>
    obtain ⟨rfl, after⟩ := List.cons.inj rest
    obtain ⟨rfl, after⟩ := List.cons.inj after
    refine .inr (.word (String.ofList word) ?_ ?_)
    · simp [← String.toList_inj, longer]
    · simpa [← String.toList_inj] using after

/-- Different names have one written form by an overlap and for no other reason. -/
theorem text_eq_iff : a.text = b.text ↔ a = b ∨ Overlaps a b ∨ Overlaps b a := by
  constructor
  · intro same
    have chars : a.package.toList ++ ':' :: ':' :: a.name.toList =
        b.package.toList ++ ':' :: ':' :: b.name.toList := by
      simpa [text] using congrArg String.toList same
    rcases List.append_eq_append_iff.mp chars with ⟨between, longer, rest⟩ | ⟨between, longer, rest⟩
    · exact (overlaps_of_longer longer rest).imp_right .inl
    · exact (overlaps_of_longer longer rest).imp Eq.symm .inr
  · rintro (rfl | overlaps | overlaps)
    · rfl
    · exact overlaps.text_eq
    · exact overlaps.text_eq.symm

end QualifiedName

open QualifiedName

variable {t : Table} {c : Conventions} {s : CompiledStack} {Instance : Type}

/-- An executor holds one instance for each key, however many steps have it. -/
theorem Executor.Wired.size_eq {e : Executor Instance} {p : Pipeline}
    {supplied : List (String × Instance)} (h : e.Wired p supplied) :
    e.components.size = p.invocationOrder.dedup.length := by
  have keys : e.components.keys.Perm p.invocationOrder.dedup := by
    refine (List.perm_ext_iff_of_nodup e.components.nodup_keys (List.nodup_dedup _)).mpr ?_
    intro key
    rw [KeyedMap.mem_keys_iff, h.exactly, List.mem_dedup]
  rw [← keys.length_eq, KeyedMap.keys, List.length_map, KeyedMap.size]

/-- The steps of a compiled pipeline have keys of their own exactly if no two components overlap,
which takes a colon in a name. An executor has one instance for each component in this case only. -/
theorem component_keys_distinct_iff {scope name : String}
    (compiled : t.compile c scope name = .ok s) :
    (s.pipeline.invocationOrder.Nodup ↔
      ∀ a ∈ s.graph.components, ∀ b ∈ s.graph.components, ¬Overlaps a.capability b.capability) ∧
    ((∀ comp ∈ s.graph.components, ':' ∉ comp.capability.name.toList) →
      s.pipeline.invocationOrder.Nodup) ∧
    ∀ (Instance : Type) (supplied : List (String × Instance)) (e : Executor Instance),
      Executor.create s.pipeline supplied = .ok e →
        (e.components.size = s.graph.size ↔ s.pipeline.invocationOrder.Nodup) := by
  obtain ⟨package, _, result⟩ := Table.compile_ok compiled
  have order : s.pipeline.invocationOrder =
      (s.graph.components.map Component.capability).map text := by
    rw [result.invocationOrder_eq, List.map_map]
    rfl
  have distinct : s.pipeline.invocationOrder.Nodup ↔
      ∀ a ∈ s.graph.components, ∀ b ∈ s.graph.components,
        ¬Overlaps a.capability b.capability := by
    rw [order, List.nodup_map_iff_inj_on result.settled.nodup]
    simp only [List.forall_mem_map]
    constructor
    · intro injective a inA b inB overlaps
      exact overlaps.ne (injective a inA b inB overlaps.text_eq)
    · intro apart a inA b inB same
      rcases text_eq_iff.mp same with same | overlaps | overlaps
      · exact same
      · exact absurd overlaps (apart a inA b inB)
      · exact absurd overlaps (apart b inB a inA)
  refine ⟨distinct, fun plain => distinct.mpr ?_, fun Instance supplied e created => ?_⟩
  · intro a inA b _ overlaps
    exact plain a inA overlaps.colon_mem
  · have size : s.graph.size = s.pipeline.invocationOrder.length := by
      rw [order, List.length_map, List.length_map]
      rfl
    rw [(Executor.create_wired created).size_eq, size]
    constructor
    · intro same
      rw [← (List.dedup_sublist _).eq_of_length same]
      exact List.nodup_dedup _
    · intro nodup
      rw [List.dedup_eq_self.mpr nodup]

theorem diamond_keys_distinct :
    diamond.compile {} "self" "Root" = .ok (.ofRange diamondGraph) ∧
      (CompiledStack.ofRange diamondGraph).pipeline.invocationOrder.Nodup ∧
      ∀ a ∈ diamondGraph.components, ∀ b ∈ diamondGraph.components,
        ¬Overlaps a.capability b.capability := by
  have compiled : diamond.compile {} "self" "Root" = .ok (.ofRange diamondGraph) := by
    decide +kernel
  obtain ⟨distinct, plain, _⟩ := component_keys_distinct_iff compiled
  have order := plain (by decide +kernel)
  exact ⟨compiled, order, distinct.mp order⟩

/-- Add a capability of any package and its implementation, which takes no bundle. -/
def Table.addPlain (t : Table) (capability : QualifiedName) : Table :=
  (t.insert capability (.interface {})).insert
    (capability.sibling (capability.name ++ "Middleware")) (.concrete { methods := [runAlone] })

/-- A package `a` with a name that goes into a package, and the package `a::b` that it goes into. -/
def twoReadings : Table :=
  let outer : QualifiedName := { package := "a", name := "b::C" }
  let inner : QualifiedName := { package := "a::b", name := "C" }
  ((Table.empty.addPlain outer).addPlain inner).insert { package := "self", name := "Root" }
    (.interface { embeds := [.declared outer, .declared inner] })

/-- Two components of one stack share a key. -/
theorem component_keys_collide :
    ∃ s, twoReadings.compile {} "self" "Root" = .ok s ∧
      s.pipeline.invocationOrder = ["a::b::C", "a::b::C"] ∧
      s.graph.components.map Component.capability =
        [{ package := "a", name := "b::C" }, { package := "a::b", name := "C" }] := by
  have evaluated : (twoReadings.compile {} "self" "Root").toOption.map (fun s =>
      (s.pipeline.invocationOrder, s.graph.components.map Component.capability)) =
      some (["a::b::C", "a::b::C"],
        [{ package := "a", name := "b::C" }, { package := "a::b", name := "C" }]) := by
    decide +kernel
  obtain ⟨s, compiled, read⟩ := Aggregate.exists_ok_of_read evaluated
  exact ⟨s, compiled, Prod.mk.inj read⟩

end MiddlewareStack
