import MiddlewareStack.Proofs.FileModules
import MiddlewareStack.Proofs.PathReferences

/-!
# Imported names stand for their paths

A path that starts with an imported name leads where the path leads that the name stands for, and
so refers to the same (`aliases_transparent_iff`). Whether an import was rooted outside the file is
not recorded, so that a rooted import leads into the file where one of its names is known there.
-/

namespace MiddlewareStack.Source

/-- A name leads through so many imports one after another, from alias to alias. The way ends at a
word that starts paths, and at a name that is not imported, or as itself only. One that leads back
to a name on it has no end. -/
inductive ModuleScope.AliasChain (scope : ModuleScope) : String → Nat → Prop
  | word {name : String} (word : name ∈ pathWords) : AliasChain scope name 0
  | free {name : String} (unbound : scope.imports.find? name = none) : AliasChain scope name 0
  | own {name : String} (bound : scope.imports.find? name = some [name]) : AliasChain scope name 0
  | follow {name next : String} {others : List String} {length : Nat} (plain : name ∉ pathWords)
      (bound : scope.imports.find? name = some (next :: others)) (away : next :: others ≠ [name])
      (rest : AliasChain scope next length) : AliasChain scope name (length + 1)

/-- Segments of these names, the last of which has the arguments. -/
def segmentsOf : List String → Arguments → List Segment
  | [], _ => []
  | [last], arguments => [⟨last, arguments⟩]
  | first :: second :: others, arguments =>
    bareSegment first :: segmentsOf (second :: others) arguments

variable {index : ModuleIndex} {scope : ModuleScope} {package name : String} {length : Nat}
  {target : List String}

/-! ## Where aliases lead -/

/-- An import of something inside a name under that name would be followed without end. -/
theorem ModuleScope.AliasChain.ne_inside (chain : scope.AliasChain name length)
    (plain : name ∉ pathWords) {next : String} {others : List String}
    (bound : scope.imports.find? name = some (next :: others)) (away : next :: others ≠ [name]) :
    next ≠ name := by
  rintro rfl
  induction length with
  | zero =>
    cases chain with
    | word word => exact plain word
    | free unbound => simp [bound] at unbound
    | own own => exact away (Option.some.inj (bound.symm.trans own))
  | succ length ih =>
    cases chain with
    | follow _ bound' _ rest =>
      obtain ⟨rfl, rfl⟩ := List.cons.inj (Option.some.inj (bound.symm.trans bound'))
      exact ih rest

/-- Beyond the length of the chain the limit on imports plays no part. -/
theorem expandWithin_of_chain (known : index.modules.find? package = some scope)
    (chain : scope.AliasChain name length) {limit limit' : Nat} (enough : length < limit)
    (enough' : length < limit') (rest : List String) :
    index.expandWithin package limit (name :: rest) =
      index.expandWithin package limit' (name :: rest) := by
  induction chain generalizing limit limit' rest with
  | @word name word | @free name unbound | @own name bound =>
    obtain ⟨limit, rfl⟩ := Nat.exists_eq_add_one_of_ne_zero (Nat.ne_zero_of_lt enough)
    obtain ⟨limit', rfl⟩ := Nat.exists_eq_add_one_of_ne_zero (Nat.ne_zero_of_lt enough')
    by_cases word : name ∈ pathWords
    · exact expandWithin_pathWord word limit limit'
    · have own : ∀ target, scope.imports.find? name = some target → target.head? = some name := by
        simp_all
      rw [expandWithin_of_own word known own, expandWithin_of_own word known own]
  | @follow name next others length plain bound away rest' ih =>
    obtain ⟨limit, rfl⟩ := Nat.exists_eq_add_one_of_ne_zero (Nat.ne_zero_of_lt enough)
    obtain ⟨limit', rfl⟩ := Nat.exists_eq_add_one_of_ne_zero (Nat.ne_zero_of_lt enough')
    have outside : (next :: others).head? ≠ some name := fun same =>
      (ModuleScope.AliasChain.follow plain bound away rest').ne_inside plain bound away
        (Option.some.inj same)
    rw [expandWithin_alias plain known bound outside, expandWithin_alias plain known bound outside]
    exact ih (Nat.lt_of_succ_lt_succ enough) (Nat.lt_of_succ_lt_succ enough') (others ++ rest)

/-- A path leads where its first name's path leads. -/
theorem expand_alias (known : index.modules.find? package = some scope) (plain : name ∉ pathWords)
    (bound : scope.imports.find? name = some target) (chain : scope.AliasChain name length)
    (short : length ≤ maxImports) (rest : List String) :
    index.expand package (name :: rest) = index.expand package (target ++ rest) := by
  cases chain with
  | word word => exact absurd word plain
  | free unbound => simp [bound] at unbound
  | own own =>
    obtain rfl := Option.some.inj (bound.symm.trans own)
    rfl
  | @follow _ next others length _ bound' away rest' =>
    obtain rfl := Option.some.inj (bound.symm.trans bound')
    have outside : (next :: others).head? ≠ some name := fun same =>
      (ModuleScope.AliasChain.follow plain bound away rest').ne_inside plain bound away
        (Option.some.inj same)
    rw [ModuleIndex.expand, expandWithin_alias plain known bound outside]
    exact expandWithin_of_chain known rest' short (Nat.lt_succ_of_lt short) (others ++ rest)

/-! ## What paths with aliases refer to -/

section Segments

variable {arguments : Arguments} {behind : List Segment} {rooted : Bool}

theorem names_segmentsOf (names : List String) (arguments : Arguments) :
    (segmentsOf names arguments).map Segment.name = names := by
  fun_induction segmentsOf names arguments with
  | case1 | case2 => rfl
  | case3 first second others arguments ih => rw [List.map_cons, ih, bareSegment]

theorem getLast?_segmentsOf (inside : target ≠ []) :
    ((segmentsOf target arguments).getLast?.map Segment.arguments) = some arguments := by
  fun_induction segmentsOf target arguments with
  | case1 => exact absurd rfl inside
  | case2 => rfl
  | case3 first second others arguments ih =>
    have behind := ih (List.cons_ne_nil _ _)
    cases found : segmentsOf (second :: others) arguments with
    | nil => simp [found] at behind
    | cons head tail => rwa [List.getLast?_cons_cons, ← found]

/-- A name and the path it stands for have the same arguments behind them. -/
theorem arguments_segmentsOf (inside : target ≠ []) :
    (PathExpr.mk rooted (segmentsOf target arguments ++ behind)).arguments =
      (PathExpr.mk false (⟨name, arguments⟩ :: behind)).arguments := by
  have last : (segmentsOf target arguments).getLast?.map Segment.arguments = some arguments :=
    getLast?_segmentsOf inside
  rw [PathExpr.arguments, PathExpr.arguments, List.getLast?_append, ← List.singleton_append,
    List.getLast?_append]
  cases behind.getLast? with
  | none => rw [Option.none_or, last, Option.none_or]; rfl
  | some found => rfl

end Segments

theorem target_ne_nil (plain : name ∉ pathWords) (bound : scope.imports.find? name = some target)
    (chain : scope.AliasChain name length) : target ≠ [] := by
  rintro rfl
  cases chain with
  | word word => exact plain word
  | free unbound => simp [bound] at unbound
  | own own => simp [bound] at own
  | follow _ bound' => simp [bound] at bound'

/-- For every import of a source file that binds a name which its module binds once, and whose
chain of aliases is not longer than the limit: a path that starts with the name refers to the same
as the path that the name stands for, with the same behind it, unless both are kept as they are
written; and as that path rooted outside the file exactly if it leads out of the file as it
stands. -/
theorem aliases_transparent_iff {text : String} {items content : List Item}
    (read : parse? text = some items) (isModule : moduleItems? items package = some content)
    (bound : (name, target) ∈ content.flatMap Item.bindings)
    (once : ((content.flatMap Item.bindings).map Prod.fst).count name = 1)
    (plain : name ∉ pathWords) (chain : (ModuleScope.ofItems content).AliasChain name length)
    (short : length ≤ maxImports) (arguments : Arguments) (behind : List Segment)
    (named : ∀ s ∈ behind, IsName s.name) :
    let index := ModuleIndex.ofItems items
    let imported : PathExpr := ⟨false, ⟨name, arguments⟩ :: behind⟩
    let spelledOut (rooted : Bool) : PathExpr := ⟨rooted, segmentsOf target arguments ++ behind⟩
    (index.pathRef package imported = index.pathRef package (spelledOut false) ↔
      (index.KeepsText package imported →
        written imported.tokens = written (spelledOut false).tokens)) ∧
    (index.pathRef package imported = index.pathRef package (spelledOut true) ↔
      index.expand package (spelledOut true).names = .elsewhere (spelledOut true).names) := by
  intro index imported spelledOut
  have known := find?_modules_of_items isModule
  have stands := ModuleScope.find?_imports_of_once bound once
  have inside := target_ne_nil plain stands chain
  have indexed : index.Named := ModuleIndex.named_ofItems (parse?_named read)
  have isPackage := indexed.isPackage (mem_packages_of_items isModule)
  have names : ∀ rooted, (spelledOut rooted).names = target ++ behind.map Segment.name := by
    intro rooted
    rw [PathExpr.names, List.map_append, names_segmentsOf]
  have allNamed : ∀ rooted, ∀ name ∈ (spelledOut rooted).names, IsName name := by
    intro rooted
    rw [names, List.forall_mem_append, List.forall_mem_map]
    exact ⟨(indexed package _ known).2 name target stands, named⟩
  have same : ∀ rooted, (spelledOut rooted).arguments = imported.arguments := fun rooted =>
    arguments_segmentsOf inside
  have leads : index.target package imported = index.expand package (spelledOut true).names := by
    rw [names]
    exact expand_alias known plain stands chain short _
  refine ⟨pathRef_eq_iff (leads.trans ?_) (same false).symm, ?_⟩
  · rw [names, ← names false]
    rfl
  · have rooted : index.target package (spelledOut true) = .elsewhere (spelledOut true).names := rfl
    rw [pathRef_of_elsewhere rooted, same true, ← leads]
    refine pathRef_eq_externalTo_iff (fun segments place => ?_) (allNamed true)
    have others := indexed.expand isPackage (allNamed true)
    rwa [← leads, place] at others

/-- The path of a name with an argument. -/
def appliedPath (name argument : String) : PathExpr :=
  ⟨false, [⟨name, .angled false [.type (namedType [] argument)] false⟩]⟩

theorem alias_of_alias_transparent :
    ∃ items, parse? "mod inner { pub struct Wrap<A>(A); } use inner as i; use i::Wrap as W;" =
        some items ∧
      moduleItems? items "self" = some items ∧
      ("W", ["i", "Wrap"]) ∈ items.flatMap Item.bindings ∧
      ((items.flatMap Item.bindings).map Prod.fst).count "W" = 1 ∧ "W" ∉ pathWords ∧
      (ModuleScope.ofItems items).AliasChain "W" 2 ∧
      let index := ModuleIndex.ofItems items
      index.pathRef "self" (appliedPath "W" "u8") =
        index.pathRef "self" ⟨false, bareSegment "i" :: (appliedPath "Wrap" "u8").segments⟩ := by
  have evaluated :
      (parse? "mod inner { pub struct Wrap<A>(A); } use inner as i; use i::Wrap as W;").map
        (fun items => (items.flatMap Item.bindings,
          (ModuleIndex.ofItems items).target "self" (appliedPath "W" "u8"))) =
      some ([("i", ["inner"]), ("W", ["i", "Wrap"])], .here ["self", "inner", "Wrap"]) := by
    decide +kernel
  obtain ⟨items, read, found⟩ := Option.map_eq_some_iff.mp evaluated
  simp only [Prod.mk.injEq] at found
  obtain ⟨bindings, leads⟩ := found
  have isModule : moduleItems? items "self" = some items := moduleItems?_root items
  have bound : ("W", ["i", "Wrap"]) ∈ items.flatMap Item.bindings := by simp [bindings]
  have once : ((items.flatMap Item.bindings).map Prod.fst).count "W" = 1 := by
    rw [bindings]
    decide
  have imported : ∀ name, (ModuleScope.ofItems items).imports.find? name =
      [("W", ["i", "Wrap"]), ("i", ["inner"])].lookup name := by
    intro name
    rw [ModuleScope.find?_imports, bindings]
    rfl
  have chain : (ModuleScope.ofItems items).AliasChain "W" 2 :=
    .follow (by decide) (imported "W") (by decide)
      (.follow (by decide) (imported "i") (by decide) (.free (imported "inner")))
  refine ⟨items, read, isModule, bound, once, by decide, chain, ?_⟩
  refine (aliases_transparent_iff read isModule bound once (by decide) chain (by decide)
    (.angled false [.type (namedType [] "u8")] false) [] (List.forall_mem_nil _)).1.mpr ?_
  rintro ⟨place, here, short | unresolved⟩
  · obtain rfl := Expanded.here.inj (leads.symm.trans here)
    exact absurd short (by decide)
  · exact absurd unresolved (by simp [PathExpr.arguments, ModuleIndex.argumentsRefs])

/-- An import rooted outside the file is taken for one of the module that has the same name as what
it is imported from. -/
theorem rooted_import_leads_inside :
    ∃ items, parse? "mod http { pub struct Request; } use ::http::Request;" = some items ∧
      items.flatMap Item.bindings = [("Request", ["http", "Request"])] ∧
      (ModuleScope.ofItems items).AliasChain "Request" 1 ∧
      let index := ModuleIndex.ofItems items
      index.pathRef "self" ⟨false, [bareSegment "Request"]⟩ = .declared ⟨"self::http", "Request"⟩ ∧
      index.pathRef "self" ⟨true, [bareSegment "http", bareSegment "Request"]⟩ =
        .external "http::Request" := by
  have evaluated : (parse? "mod http { pub struct Request; } use ::http::Request;").map
      (fun items => (items.flatMap Item.bindings,
        (ModuleIndex.ofItems items).pathRef "self" ⟨false, [bareSegment "Request"]⟩,
        (ModuleIndex.ofItems items).pathRef "self"
          ⟨true, [bareSegment "http", bareSegment "Request"]⟩)) =
      some ([("Request", ["http", "Request"])], .declared ⟨"self::http", "Request"⟩,
        .external "http::Request") := by decide +kernel
  obtain ⟨items, read, found⟩ := Option.map_eq_some_iff.mp evaluated
  simp only [Prod.mk.injEq] at found
  obtain ⟨bindings, inside, outside⟩ := found
  have imported : ∀ name, (ModuleScope.ofItems items).imports.find? name =
      [("Request", ["http", "Request"])].lookup name := by
    intro name
    rw [ModuleScope.find?_imports, bindings]
    rfl
  refine ⟨items, read, bindings, ?_, inside, outside⟩
  exact .follow (by decide) (imported "Request") (by decide) (.free (imported "http"))

end MiddlewareStack.Source
