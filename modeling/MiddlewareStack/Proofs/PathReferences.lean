import MiddlewareStack.Proofs.PlacedTypes

/-!
# What paths refer to

Where a path leads is told by its first name: one of the words that start paths, a name that its
module imports, or one that the module declares (`expandWithin_of_own`, `expandWithin_alias`). What
the path refers to depends on that and on the arguments of its last segment. Its own spelling only
counts where a path is kept as it is written: `pathRef_eq_iff`.
-/

namespace MiddlewareStack.Source

variable {index : ModuleIndex} {package name : String} {path path' : PathExpr}
  {front place : List String} {arguments : Arguments}

/-! ## Where paths lead -/

/-- The words that start paths and that no import gives another meaning. -/
def pathWords : List String :=
  ["crate", "self", "super"]

section FirstName

variable {scope : ModuleScope} {first : String} {rest target : List String} {limit : Nat}

theorem expandWithin_pathWord (word : first ∈ pathWords) (limit limit' : Nat) :
    index.expandWithin package (limit + 1) (first :: rest) =
      index.expandWithin package (limit' + 1) (first :: rest) := by
  simp only [pathWords, List.mem_cons, List.not_mem_nil, or_false] at word
  rcases word with rfl | rfl | rfl <;> simp [ModuleIndex.expandWithin]

/-- A name that is not imported, or as itself only, is one that the module declares or comes from
elsewhere. -/
theorem expandWithin_of_own (plain : first ∉ pathWords)
    (known : index.modules.find? package = some scope)
    (own : ∀ target, scope.imports.find? first = some target → target.head? = some first) :
    index.expandWithin package (limit + 1) (first :: rest) =
      if scope.items.contains first then .here (Text.segments package ++ first :: rest)
      else .elsewhere (first :: rest) := by
  simp only [pathWords, List.mem_cons, List.not_mem_nil, or_false, not_or] at plain
  obtain ⟨noCrate, noSelf, noSuper⟩ := plain
  rw [ModuleIndex.expandWithin]
  simp only [noCrate, noSelf, noSuper, known, if_false]
  cases imported : scope.imports.find? first with
  | none => rfl
  | some target => simp only [own target imported, if_true]

/-- An imported name is replaced by the path that it stands for. -/
theorem expandWithin_alias (plain : first ∉ pathWords)
    (known : index.modules.find? package = some scope)
    (bound : scope.imports.find? first = some target) (away : target.head? ≠ some first) :
    index.expandWithin package (limit + 1) (first :: rest) =
      index.expandWithin package limit (target ++ rest) := by
  simp only [pathWords, List.mem_cons, List.not_mem_nil, or_false, not_or] at plain
  obtain ⟨noCrate, noSelf, noSuper⟩ := plain
  rw [ModuleIndex.expandWithin]
  simp only [noCrate, noSelf, noSuper, known, bound, away, if_false]

end FirstName

/-! ## What they refer to -/

theorem segmentsRefs_eq (rooted : Bool) (segments : List Segment) :
    index.segmentsRefs package segments =
      index.argumentsRefs package (PathExpr.mk rooted segments).arguments := by
  rcases List.eq_nil_or_concat segments with rfl | ⟨front, last, rfl⟩
  · rw [ModuleIndex.segmentsRefs, PathExpr.arguments, List.getLast?_nil, Option.map_none,
      Option.getD_none, ModuleIndex.argumentsRefs]
  · rw [List.concat_eq_append, segmentsRefs_last, PathExpr.arguments, List.getLast?_concat,
      Option.map_some, Option.getD_some]

theorem pathRef_eq (path : PathExpr) : index.pathRef package path =
    index.reference package path (index.argumentsRefs package path.arguments) := by
  cases path with
  | mk rooted segments => rw [ModuleIndex.pathRef, segmentsRefs_eq rooted]

/-- Whether arguments are those of a function trait does not depend on the package. -/
theorem argumentsRefs_eq_none {p q : String} (h : index.argumentsRefs p arguments = none) :
    index.argumentsRefs q arguments = none := by
  cases arguments <;> simp_all [ModuleIndex.argumentsRefs]

/-! ## Into the file -/

theorem declarationAt?_concat (inside : front ≠ []) :
    declarationAt? (front ++ [name]) = some ⟨Text.pathText front, name⟩ := by
  simp [declarationAt?, inside]

/-- A path that leads to a declaration refers to it, applied to what its arguments refer to. -/
theorem pathRef_of_here (leads : index.target package path = .here (front ++ [name]))
    (inside : front ≠ []) {refs : List TypeRef}
    (resolved : index.argumentsRefs package path.arguments = some refs) :
    index.pathRef package path = appliedTo ⟨Text.pathText front, name⟩ refs := by
  rw [pathRef_eq, ModuleIndex.reference, leads]
  simp only [declarationAt?_concat inside, resolved]

theorem appliedTo_inj {base base' : QualifiedName} {refs refs' : List TypeRef} :
    appliedTo base refs = appliedTo base' refs' ↔ base = base' ∧ refs = refs' := by
  cases refs <;> cases refs' <;> simp [appliedTo]

/-- Whether a path into the file is kept as it is written: one to the top level itself, or one with
the arguments of a function trait. -/
def ModuleIndex.KeepsText (index : ModuleIndex) (package : String) (path : PathExpr) : Prop :=
  ∃ place, index.target package path = .here place ∧
    (place.length ≤ 1 ∨ index.argumentsRefs package path.arguments = none)

theorem ModuleIndex.KeepsText.pathRef (h : index.KeepsText package path) :
    index.pathRef package path = .verbatim (written path.tokens) := by
  obtain ⟨place, leads, short | unresolved⟩ := h
  · rw [pathRef_eq, reference, leads]
    simp only [declarationAt?_eq_none (Nat.not_lt.mpr short)]
  · rw [pathRef_eq, reference, leads, unresolved]
    cases found : declarationAt? place <;> simp only [found]

theorem keepsText_or_applied (leads : index.target package path = .here place) :
    index.KeepsText package path ∨ ∃ base refs, declarationAt? place = some base ∧
      index.argumentsRefs package path.arguments = some refs ∧
      index.pathRef package path = appliedTo base refs := by
  cases resolved : index.argumentsRefs package path.arguments with
  | none => exact .inl ⟨place, leads, .inr resolved⟩
  | some refs =>
    by_cases short : place.length ≤ 1
    · exact .inl ⟨place, leads, .inl short⟩
    · obtain ⟨front, last, inside, rfl, found⟩ := declarationAt?_eq_some (Nat.not_le.mp short)
      exact .inr ⟨_, refs, found, rfl, pathRef_of_here leads inside resolved⟩

/-- Paths that lead to the same place with the same arguments refer to the same, unless they are
kept as they are written. -/
theorem pathRef_eq_iff (leads : index.target package path = index.target package path')
    (arguments : path.arguments = path'.arguments) :
    index.pathRef package path = index.pathRef package path' ↔
      (index.KeepsText package path → written path.tokens = written path'.tokens) := by
  have both : index.KeepsText package path → index.KeepsText package path' := by
    rintro ⟨place, here, kept⟩
    exact ⟨place, leads ▸ here, arguments ▸ kept⟩
  by_cases kept : index.KeepsText package path
  · rw [kept.pathRef, (both kept).pathRef, TypeRef.verbatim.injEq]
    exact ⟨fun same _ => same, fun same => same kept⟩
  · refine iff_of_true ?_ fun holds => absurd holds kept
    cases place : index.target package path with
    | elsewhere segments =>
      rw [pathRef_eq, pathRef_eq, ModuleIndex.reference, ModuleIndex.reference, ← leads, place,
        arguments]
    | here place' =>
      obtain holds | ⟨base, refs, found, resolved, applied⟩ := keepsText_or_applied place
      · exact absurd holds kept
      · rw [applied, pathRef_eq, ModuleIndex.reference, ← leads, place]
        simp only [found, ← arguments, resolved]

/-- Where a path of one package and one of another lead to the same declaration with the same
arguments, they refer to the same exactly if these do in both. -/
theorem pathRef_eq_iff_arguments {other : String}
    (leads : index.target package path = .here (front ++ [name]))
    (leads' : index.target other path' = .here (front ++ [name])) (inside : front ≠ [])
    (arguments : path.arguments = path'.arguments) {refs : List TypeRef}
    (resolved : index.argumentsRefs package path'.arguments = some refs) :
    index.pathRef package path = index.pathRef other path' ↔
      index.argumentsRefs other path'.arguments = some refs := by
  rw [pathRef_of_here leads inside (arguments ▸ resolved)]
  cases found : index.argumentsRefs other path'.arguments with
  | some others =>
    rw [pathRef_of_here leads' inside found, appliedTo_inj, Option.some.injEq]
    exact ⟨fun same => same.2.symm, fun same => ⟨rfl, same.symm⟩⟩
  | none =>
    rw [argumentsRefs_eq_none found] at resolved
    cases resolved

/-! ## Out of the file -/

theorem pathRef_of_elsewhere {segments : List String}
    (leads : index.target package path = .elsewhere segments) :
    index.pathRef package path = externalTo segments path.arguments := by
  rw [pathRef_eq, ModuleIndex.reference, leads]

theorem externalTo_eq (segments : List String) (arguments : Arguments) :
    ∃ behind, externalTo segments arguments = .external (Text.pathText segments ++ behind) ∧
      ∀ others, externalTo others arguments = .external (Text.pathText others ++ behind) := by
  cases arguments with
  | none => exact ⟨"", by simp [externalTo], by simp [externalTo]⟩
  | angled | parenthesized => exact ⟨_, rfl, fun _ => rfl⟩

theorem pathText_inj {names others : List String} (named : ∀ name ∈ names, IsName name)
    (named' : ∀ name ∈ others, IsName name) (same : Text.pathText names = Text.pathText others) :
    names = others := by
  have empty : ∀ {names : List String}, (∀ name ∈ names, IsName name) →
      Text.pathText names = Text.pathText [] → names = [] := by
    intro names named same
    cases names with
    | nil => rfl
    | cons name names =>
      have cut := segments_pathText named (List.cons_ne_nil _ _)
      have single : Text.segments (Text.pathText []) = [""] := by decide +kernel
      rw [same, single] at cut
      have noName : ¬IsName "" := by decide
      exact absurd (named "" (by simp [← cut])) noName
  cases names with
  | nil => exact (empty named' same.symm).symm
  | cons name names =>
    cases others with
    | nil => exact empty named same
    | cons other others =>
      rw [← segments_pathText named (List.cons_ne_nil _ _), same,
        segments_pathText named' (List.cons_ne_nil _ _)]

/-- The path out of the file is known by what a reference says. -/
theorem externalTo_inj {segments others : List String} (named : ∀ name ∈ segments, IsName name)
    (named' : ∀ name ∈ others, IsName name) :
    externalTo segments arguments = externalTo others arguments ↔ segments = others := by
  refine ⟨fun same => ?_, fun same => same ▸ rfl⟩
  obtain ⟨behind, text, text'⟩ := externalTo_eq segments arguments
  rw [text, text', TypeRef.external.injEq, ← String.toList_inj, String.toList_append,
    String.toList_append, List.append_cancel_right_eq, String.toList_inj] at same
  exact pathText_inj named named' same

/-- A path refers to something out of the file exactly if it leads there. -/
theorem pathRef_eq_externalTo_iff {segments : List String}
    (named : ∀ others, index.target package path = .elsewhere others → ∀ name ∈ others, IsName name)
    (named' : ∀ name ∈ segments, IsName name) :
    index.pathRef package path = externalTo segments path.arguments ↔
      index.target package path = .elsewhere segments := by
  cases place : index.target package path with
  | elsewhere others =>
    rw [pathRef_of_elsewhere place, externalTo_inj (named others place) named',
      Expanded.elsewhere.injEq]
  | here others =>
    obtain ⟨_, text, _⟩ := externalTo_eq segments path.arguments
    rw [text]
    refine iff_of_false (fun same => ?_) fun same => Expanded.noConfusion same
    rcases keepsText_or_applied place with kept | ⟨_, refs, _, _, applied⟩
    · rw [kept.pathRef] at same
      cases same
    · rw [applied] at same
      cases refs <;> cases same

end MiddlewareStack.Source
