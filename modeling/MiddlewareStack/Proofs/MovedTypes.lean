import MiddlewareStack.Proofs.PlacedTypes
import MiddlewareStack.Proofs.ReadTypes

/-!
# Types moved to another package

A plain type that is written in one package and read in another refers to the same there exactly if
it names the same places.
-/

namespace MiddlewareStack.Source

variable {index : ModuleIndex} {package p q : String}

/-- The last of some segments, which has the arguments that count. -/
theorem exists_last (first : Segment) (others : List Segment) :
    ∃ front last, first :: others = front ++ [last] :=
  ⟨_, _, (List.dropLast_concat_getLast (List.cons_ne_nil first others)).symm⟩

theorem Segment.Plain.angled {s : Segment} (h : s.Plain) :
    s.arguments = .none ∨
      ∃ separated list trailing, s.arguments = .angled separated list trailing := by
  cases h with
  | bare => exact .inl rfl
  | applied => exact .inr ⟨_, _, _, rfl⟩

section Arguments

variable {lifetimes : List String} {types : List TypeExpr}

theorem argumentRefs_ordered : index.argumentRefs package (orderedArguments lifetimes types) =
    types.map (index.typeRef package) := by
  induction lifetimes with
  | nil =>
    induction types with
    | nil => rfl
    | cons first rest ih => exact congrArg (index.typeRef package first :: ·) ih
  | cons _ _ ih => exact ih

theorem argumentsPlaced_ordered : argumentsPlaced index package (orderedArguments lifetimes types) =
    types.map (·.placed index package) := by
  induction lifetimes with
  | nil =>
    induction types with
    | nil => rfl
    | cons first rest ih => exact congrArg (first.placed index package :: ·) ih
  | cons _ _ ih => exact ih

end Arguments

theorem placedAll_eq (refs : List TypeRef) : TypeRef.placedAll refs = refs.map TypeRef.placed := by
  induction refs with
  | nil => rfl
  | cons first rest ih => rw [TypeRef.placedAll, ih, List.map_cons]

mutual

/-- What a plain type refers to says the places that it names. -/
theorem TypeExpr.Plain.placed_typeRef (indexed : index.Named) (isPackage : IsPackage package) :
    ∀ {type : TypeExpr}, type.Plain →
      (index.typeRef package type).placed = type.placed index package
  | _, .reference _ _ inner => by
    rw [ModuleIndex.typeRef, TypeRef.placed, inner.placed_typeRef indexed isPackage,
      TypeExpr.placed]
  | _, @TypeExpr.Plain.path rooted first others head tail => by
    have plain : ∀ s ∈ first :: others, s.Plain := List.forall_mem_cons.mpr ⟨head, tail⟩
    have resolved : ∀ s ∈ first :: others, ∃ refs,
        index.argumentsRefs package s.arguments = some refs ∧
          TypeRef.placedAll refs = s.arguments.placed index package :=
      List.forall_mem_cons.mpr ⟨head.placed_refs indexed isPackage,
        fun s member => (tail s member).placed_refs indexed isPackage⟩
    obtain ⟨front, last, split⟩ := exists_last first others
    rw [split] at plain resolved ⊢
    have isLast : last ∈ front ++ [last] := by simp
    rw [ModuleIndex.typeRef, TypeExpr.placed]
    exact placed_pathRef indexed isPackage (fun s member => (plain s member).isName.1)
      (plain last isLast).angled (resolved last isLast)

theorem Segment.Plain.placed_refs (indexed : index.Named) (isPackage : IsPackage package) :
    ∀ {s : Segment}, s.Plain → ∃ refs, index.argumentsRefs package s.arguments = some refs ∧
      TypeRef.placedAll refs = s.arguments.placed index package
  | _, .bare _ => by
    refine ⟨[], by rw [ModuleIndex.argumentsRefs], ?_⟩
    rw [TypeRef.placedAll, Arguments.placed]
    exact nofun
  | _, .applied _ _ _ _ inside _ => by
    refine ⟨_, by rw [ModuleIndex.argumentsRefs], ?_⟩
    rw [argumentRefs_ordered, placedAll_eq, List.map_map, Arguments.placed, argumentsPlaced_ordered]
    exact List.map_congr_left fun type member =>
      (inside type member).placed_typeRef indexed isPackage

end

/-- A path that names the same places from two packages refers to the same. -/
theorem pathRef_eq_of_placed {front : List Segment} {last : Segment} {rooted : Bool}
    (arguments : last.arguments.placed index p = last.arguments.placed index q →
      index.argumentsRefs p last.arguments = index.argumentsRefs q last.arguments)
    (h : PathExpr.placed index p ⟨rooted, front ++ [last]⟩ =
      PathExpr.placed index q ⟨rooted, front ++ [last]⟩) :
    index.pathRef p ⟨rooted, front ++ [last]⟩ = index.pathRef q ⟨rooted, front ++ [last]⟩ := by
  rw [PathExpr.placed, PathExpr.placed, lastPlaced_last, lastPlaced_last] at h
  rw [ModuleIndex.pathRef, ModuleIndex.pathRef, ModuleIndex.reference, ModuleIndex.reference,
    segmentsRefs_last, segmentsRefs_last]
  cases leads : index.target p ⟨rooted, front ++ [last]⟩ with
  | elsewhere path =>
    cases leads' : index.target q ⟨rooted, front ++ [last]⟩ with
    | elsewhere path' =>
      simp only [leads, leads', PlacedType.unresolved.injEq, Expanded.elsewhere.injEq] at h
      simp only [h.1]
    | here path' =>
      simp only [leads, leads'] at h
      split at h <;> simp at h
  | here path =>
    cases leads' : index.target q ⟨rooted, front ++ [last]⟩ with
    | elsewhere path' =>
      simp only [leads, leads'] at h
      split at h <;> simp at h
    | here path' =>
      simp only [leads, leads'] at h
      by_cases long : path.length > 1
      · by_cases long' : path'.length > 1
        · simp only [if_pos long, if_pos long', PlacedType.applied.injEq, Expanded.here.injEq] at h
          simp only [h.1, arguments h.2]
        · simp [if_pos long, if_neg long'] at h
      · simp only [declarationAt?_eq_none long]
        by_cases long' : path'.length > 1
        · simp [if_neg long, if_pos long'] at h
        · simp only [declarationAt?_eq_none long']

mutual

theorem TypeExpr.Plain.typeRef_eq_of_placed : ∀ {type : TypeExpr}, type.Plain →
    type.placed index p = type.placed index q → index.typeRef p type = index.typeRef q type
  | _, .reference _ _ inner, h => by
    rw [TypeExpr.placed, TypeExpr.placed, PlacedType.reference.injEq] at h
    rw [ModuleIndex.typeRef, ModuleIndex.typeRef, inner.typeRef_eq_of_placed h.2]
  | _, @TypeExpr.Plain.path rooted first others head tail, h => by
    have same : ∀ s ∈ first :: others, s.arguments.placed index p = s.arguments.placed index q →
        index.argumentsRefs p s.arguments = index.argumentsRefs q s.arguments :=
      List.forall_mem_cons.mpr ⟨head.refs_eq_of_placed, fun s member =>
        (tail s member).refs_eq_of_placed⟩
    obtain ⟨front, last, split⟩ := exists_last first others
    rw [split] at same h ⊢
    rw [TypeExpr.placed, TypeExpr.placed] at h
    rw [ModuleIndex.typeRef, ModuleIndex.typeRef]
    exact pathRef_eq_of_placed (same last (by simp)) h

theorem Segment.Plain.refs_eq_of_placed : ∀ {s : Segment}, s.Plain →
    s.arguments.placed index p = s.arguments.placed index q →
      index.argumentsRefs p s.arguments = index.argumentsRefs q s.arguments
  | _, .bare _, _ => by rw [ModuleIndex.argumentsRefs, ModuleIndex.argumentsRefs]
  | _, .applied _ _ _ _ inside _, h => by
    rw [Arguments.placed, Arguments.placed, argumentsPlaced_ordered, argumentsPlaced_ordered,
      List.map_inj_left] at h
    rw [ModuleIndex.argumentsRefs, ModuleIndex.argumentsRefs, argumentRefs_ordered,
      argumentRefs_ordered, Option.some.injEq, List.map_inj_left]
    exact fun type member => (inside type member).typeRef_eq_of_placed (h type member)

end

/-- A plain type refers to the same from two packages exactly if it names the same places. -/
theorem TypeExpr.Plain.typeRef_eq_iff {type : TypeExpr} (plain : type.Plain) (indexed : index.Named)
    (inP : IsPackage p) (inQ : IsPackage q) :
    index.typeRef p type = index.typeRef q type ↔ type.placed index p = type.placed index q := by
  refine ⟨fun same => ?_, plain.typeRef_eq_of_placed⟩
  rw [← plain.placed_typeRef indexed inP, same, plain.placed_typeRef indexed inQ]

end MiddlewareStack.Source
