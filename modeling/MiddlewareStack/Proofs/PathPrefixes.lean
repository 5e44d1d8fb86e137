import MiddlewareStack.Proofs.PathReferences

/-!
# Spellings of one path

A path that goes up from its package and one that goes down from the top level refer to the same
declaration where they meet (`prefixes_agree`). Behind `self` no other word of this kind counts, so
that a path that starts with `self::super` does not go up.
-/

namespace MiddlewareStack.Source

variable {index : ModuleIndex} {package : String} {names rest : List String}

theorem expand_crate (rest : List String) :
    index.expand package ("crate" :: rest) = .here (rootPackage :: rest) := by
  simp [ModuleIndex.expand, ModuleIndex.expandWithin]

theorem expand_self (rest : List String) :
    index.expand package ("self" :: rest) = .here (Text.segments package ++ rest) := by
  simp [ModuleIndex.expand, ModuleIndex.expandWithin]

/-- So many levels up, but not above the top level. -/
theorem expand_supers {ups : Nat} (positive : 0 < ups)
    (inside : ups < (Text.segments package).length) (ends : rest.head? ≠ some "super") :
    index.expand package (List.replicate ups "super" ++ rest) =
      .here ((Text.segments package).take ((Text.segments package).length - ups) ++ rest) := by
  have counted : (List.replicate ups "super" ++ rest).takeWhile (· == "super") =
      List.replicate ups "super" := by
    rw [List.takeWhile_append_of_pos (by simp)]
    cases rest with
    | nil => simp
    | cons first others =>
      have other : (first == "super") = false := by simpa using ends
      simp [other]
  obtain ⟨ups, rfl⟩ := Nat.exists_eq_add_one_of_ne_zero (Nat.ne_of_gt positive)
  have expanded : index.expand package (List.replicate (ups + 1) "super" ++ rest) =
      ModuleIndex.expandSuper (Text.segments package)
        (List.replicate (ups + 1) "super" ++ rest) := by
    simp [ModuleIndex.expand, ModuleIndex.expandWithin, List.replicate_succ]
  rw [expanded, ModuleIndex.expandSuper, counted]
  simp [Nat.not_le.mpr inside]

/-- A path of some names and what is behind them. -/
def pathBehind (names : List String) (behind : List Segment) : PathExpr :=
  ⟨false, names.map bareSegment ++ behind⟩

theorem names_pathBehind (names : List String) (behind : List Segment) :
    (pathBehind names behind).names = names ++ behind.map Segment.name := by
  simp [pathBehind, PathExpr.names, bareSegment, Function.comp_def]

theorem pathRef_pathBehind {place : List String} {front : List Segment} {last : Segment}
    (leads : index.expand package (names ++ (front ++ [last]).map Segment.name) =
      .here (place ++ (front ++ [last]).map Segment.name))
    (inside : place ≠ []) {refs : List TypeRef}
    (resolved : index.argumentsRefs package last.arguments = some refs) :
    index.pathRef package (pathBehind names (front ++ [last])) =
      appliedTo ⟨Text.pathText (place ++ front.map Segment.name), last.name⟩ refs := by
  have target : index.target package (pathBehind names (front ++ [last])) =
      .here ((place ++ front.map Segment.name) ++ [last.name]) := by
    rw [ModuleIndex.target, names_pathBehind]
    simpa [pathBehind] using leads
  refine pathRef_of_here target (by simp [inside]) ?_
  simpa [pathBehind, PathExpr.arguments] using resolved

/-- Behind `self`, the words that go up are taken for names. -/
theorem pathRef_self_supers (home : Text.segments package = names) (inside : names ≠ [])
    (ups : Nat) {front : List Segment} {last : Segment} {refs : List TypeRef}
    (resolved : index.argumentsRefs package last.arguments = some refs) :
    index.pathRef package (pathBehind ("self" :: List.replicate ups "super") (front ++ [last])) =
      appliedTo ⟨Text.pathText (names ++ List.replicate ups "super" ++ front.map Segment.name),
        last.name⟩ refs := by
  refine pathRef_pathBehind ?_ (by simp [inside]) resolved
  rw [List.cons_append, expand_self, home, List.append_assoc]

/-- Taken for names they lead to a place of their own, as it lies deeper. -/
theorem pathText_supers_iff (named : ∀ name ∈ names, IsName name)
    (restNamed : ∀ name ∈ rest, IsName name) {ups : Nat} (inside : ups ≤ names.length) :
    Text.pathText (rootPackage :: names ++ List.replicate ups "super" ++ rest) =
      Text.pathText (rootPackage :: names.take (names.length - ups) ++ rest) ↔ ups = 0 := by
  constructor
  · intro same
    have isSuper : IsName "super" := by decide +kernel
    have deep : ∀ name ∈ rootPackage :: names ++ List.replicate ups "super" ++ rest,
        IsName name := by
      simp only [List.forall_mem_append, List.forall_mem_cons]
      exact ⟨⟨⟨isName_rootPackage, named⟩,
        fun name member => List.eq_of_mem_replicate member ▸ isSuper⟩, restNamed⟩
    have above : ∀ name ∈ rootPackage :: names.take (names.length - ups) ++ rest,
        IsName name := by
      simp only [List.forall_mem_append, List.forall_mem_cons]
      exact ⟨⟨isName_rootPackage, fun name member => named name (List.mem_of_mem_take member)⟩,
        restNamed⟩
    have length := congrArg List.length (pathText_inj deep above same)
    simp at length
    omega
  · rintro rfl
    simp

/-- In a package of names, going up any number of levels and going down from the top level refer to
the same declaration, and so does going up behind `self` if there is no level to go up. -/
theorem prefixes_agree (named : ∀ name ∈ names, IsName name) {ups : Nat}
    (inside : ups ≤ names.length) {front : List Segment} {last : Segment}
    (behindNamed : ∀ s ∈ front ++ [last], IsName s.name)
    (ends : ((front ++ [last]).map Segment.name).head? ≠ some "super") {refs : List TypeRef}
    (resolved : index.argumentsRefs (Text.pathText (rootPackage :: names)) last.arguments =
      some refs) :
    let package := Text.pathText (rootPackage :: names)
    let above := names.take (names.length - ups)
    let absolute := appliedTo
      ⟨Text.pathText (rootPackage :: above ++ front.map Segment.name), last.name⟩ refs
    index.pathRef package (pathBehind ("crate" :: above) (front ++ [last])) = absolute ∧
    (0 < ups → index.pathRef package
      (pathBehind (List.replicate ups "super") (front ++ [last])) = absolute) ∧
    (index.pathRef package
      (pathBehind ("self" :: List.replicate ups "super") (front ++ [last])) = absolute ↔
        ups = 0) := by
  intro package above absolute
  have home : Text.segments package = rootPackage :: names :=
    segments_pathText (List.forall_mem_cons.mpr ⟨isName_rootPackage, named⟩) (List.cons_ne_nil _ _)
  refine ⟨?_, fun positive => ?_, ?_⟩
  · exact pathRef_pathBehind (expand_crate _) (List.cons_ne_nil _ _) resolved
  · refine pathRef_pathBehind ?_ (List.cons_ne_nil _ _) resolved
    have depth : (Text.segments package).length = names.length + 1 := by rw [home, List.length_cons]
    rw [expand_supers positive (depth ▸ Nat.lt_succ_of_le inside) ends, depth, home,
      Nat.succ_sub inside, List.take_succ_cons]
  · have frontNamed : ∀ name ∈ front.map Segment.name, IsName name := by
      rw [List.forall_mem_map]
      exact fun s member => behindNamed s (List.mem_append_left _ member)
    rw [pathRef_self_supers home (List.cons_ne_nil _ _) ups resolved, appliedTo_inj,
      QualifiedName.mk.injEq, ← pathText_supers_iff named frontNamed inside]
    simp only [and_true, above]

theorem wrap_in_parent_spelled_alike :
    let wrap : Segment := ⟨"Wrap", .angled false [.type (namedType [] "u8")] false⟩
    (∀ name ∈ ["a", "b"], IsName name) ∧ 1 ≤ ["a", "b"].length ∧
      (∀ s ∈ [bareSegment "c"] ++ [wrap], IsName s.name) ∧
      (([bareSegment "c"] ++ [wrap]).map Segment.name).head? ≠ some "super" ∧
      ModuleIndex.argumentsRefs {} "self::a::b" wrap.arguments = some [.external "u8"] ∧
      ModuleIndex.pathRef {} "self::a::b" (pathBehind ["crate", "a"] [bareSegment "c", wrap]) =
        .generic ⟨"self::a::c", "Wrap"⟩ [.external "u8"] ∧
      ModuleIndex.pathRef {} "self::a::b" (pathBehind ["super"] [bareSegment "c", wrap]) =
        .generic ⟨"self::a::c", "Wrap"⟩ [.external "u8"] := by
  intro wrap
  have named : ∀ name ∈ ["a", "b"], IsName name := by decide +kernel
  have behind : ∀ s ∈ [bareSegment "c"] ++ [wrap], IsName s.name := by
    rw [← List.forall_mem_map (f := Segment.name) (P := IsName)]
    decide +kernel
  have ends : (([bareSegment "c"] ++ [wrap]).map Segment.name).head? ≠ some "super" := by decide
  have resolved : ModuleIndex.argumentsRefs {} "self::a::b" wrap.arguments =
      some [.external "u8"] := by decide +kernel
  obtain ⟨down, up, _⟩ :=
    prefixes_agree named (by decide : 1 ≤ ["a", "b"].length) behind ends resolved
  exact ⟨named, by decide, behind, ends, resolved, down, up Nat.one_pos⟩

/-- Behind `self` no path goes up. -/
theorem self_super_stays :
    ∃ items, parse? "mod a {} struct Top;" = some items ∧
      let index := ModuleIndex.ofItems items
      "self::a" ∈ index.packages ∧
      index.pathRef "self::a" (pathBehind ["super"] [bareSegment "Top"]) =
        .declared ⟨"self", "Top"⟩ ∧
      index.pathRef "self::a" (pathBehind ["self", "super"] [bareSegment "Top"]) =
        .declared ⟨"self::a::super", "Top"⟩ := by
  have evaluated : (parse? "mod a {} struct Top;").map (fun items =>
      let index := ModuleIndex.ofItems items
      (index.packages, index.pathRef "self::a" (pathBehind ["super"] [bareSegment "Top"]),
        index.pathRef "self::a" (pathBehind ["self", "super"] [bareSegment "Top"]))) =
      some (["self", "self::a"], .declared ⟨"self", "Top"⟩,
        .declared ⟨"self::a::super", "Top"⟩) := by decide +kernel
  obtain ⟨items, read, found⟩ := Option.map_eq_some_iff.mp evaluated
  simp only [Prod.mk.injEq] at found
  obtain ⟨packages, up, stays⟩ := found
  exact ⟨items, read, by simp [packages], up, stays⟩

end MiddlewareStack.Source
