import MiddlewareStack.Proofs.FileModules
import MiddlewareStack.Proofs.PathReferences

/-!
# Paths through child modules

A path that starts with a module of its package leads to a place inside this module. It is the place
that the rest of the path leads to from there, if the rest starts with a name that the module
declares (`child_paths_agree`). Arguments are those of the package in which a path is written.
-/

namespace MiddlewareStack.Source

variable {items content inner : List Item} {package child : String}

theorem segments_subpackage (isPackage : IsPackage package) (isName : IsName child) :
    Text.segments (subpackage package child) = Text.segments package ++ [child] := by
  obtain ⟨names, named, rfl⟩ := isPackage
  have all : ∀ name ∈ rootPackage :: names, IsName name :=
    List.forall_mem_cons.mpr ⟨isName_rootPackage, named⟩
  have below : ∀ name ∈ rootPackage :: names ++ [child], IsName name :=
    List.forall_mem_append.mpr ⟨all, List.forall_mem_singleton.mpr isName⟩
  rw [← pathText_concat (List.cons_ne_nil _ _), segments_pathText below (by simp),
    segments_pathText all (List.cons_ne_nil _ _)]

theorem Item.Named.isItemName {item : Item} (named : item.Named) {name : String}
    {itemClass : ItemClass} (declared : item.declaration? = some (name, itemClass)) :
    IsItemName name := by
  cases named with
  | interface isName | concrete isName | synonym isName | module isName | distantModule isName =>
    cases declared
    exact isName
  | implementation | imports | other => cases declared

/-- What an item declares has a name that starts no path of its own. -/
theorem Item.Named.plain {item : Item} (named : item.Named) {name : String}
    {itemClass : ItemClass} (declared : item.declaration? = some (name, itemClass)) :
    IsName name ∧ name ∉ pathWords := by
  obtain ⟨isName, reserved⟩ := named.isItemName declared
  refine ⟨isName, fun word => ?_⟩
  have all : ∀ word ∈ pathWords, word ∈ reservedWords ∧ word ≠ "try" := by decide
  exact (all name word).2 (reserved (all name word).1)

/-- A name that a module declares, and does not import unless as itself, leads to its place in
it. -/
theorem expand_declared {text : String} (read : parse? text = some items)
    (isModule : moduleItems? items package = some content) {item : Item} (member : item ∈ content)
    {name : String} {itemClass : ItemClass}
    (declared : item.declaration? = some (name, itemClass))
    (own : ∀ target, (name, target) ∈ content.flatMap Item.bindings → target.head? = some name)
    (rest : List String) :
    (ModuleIndex.ofItems items).expand package (name :: rest) =
      .here (Text.segments package ++ name :: rest) := by
  have named := named_of_moduleItems (parse?_named read) isModule item member
  rw [ModuleIndex.expand, expandWithin_of_own (named.plain declared).2
    (find?_modules_of_items isModule), if_pos (ModuleScope.contains_items member declared)]
  intro target found
  rw [ModuleScope.find?_imports] at found
  exact own target (List.mem_reverse.mp (KeyedMap.mem_of_lookup_eq_some found))

/-- For every module of a source file and every child module whose name it does not import: a path
that starts with a name that the child declares, and does not import from elsewhere, leads from
there to the same place as the path through the child leads from its parent, and refers to the same
exactly if its arguments do. -/
theorem child_paths_agree {text : String} (read : parse? text = some items)
    (isModule : moduleItems? items package = some content) {block : List Item}
    (isInside : .module child block ∈ content)
    (unbound : child ∉ (content.flatMap Item.bindings).map Prod.fst)
    (isChild : moduleItems? items (subpackage package child) = some inner) {item : Item}
    (member : item ∈ inner) {first : Segment} {itemClass : ItemClass}
    (declared : item.declaration? = some (first.name, itemClass))
    (own : ∀ target, (first.name, target) ∈ inner.flatMap Item.bindings →
      target.head? = some first.name) (behind : List Segment) :
    let index := ModuleIndex.ofItems items
    let path : PathExpr := ⟨false, first :: behind⟩
    let below : PathExpr := ⟨false, bareSegment child :: first :: behind⟩
    index.target package below = .here (Text.segments package ++ child :: path.names) ∧
    index.target (subpackage package child) path = index.target package below ∧
    ∀ refs, index.argumentsRefs package path.arguments = some refs →
      (index.pathRef package below = index.pathRef (subpackage package child) path ↔
        index.argumentsRefs (subpackage package child) path.arguments = some refs) := by
  intro index path below
  have indexed : index.Named := ModuleIndex.named_ofItems (parse?_named read)
  have isPackage := indexed.isPackage (mem_packages_of_items isModule)
  have isName : IsName child :=
    ((named_of_moduleItems (parse?_named read) isModule _ isInside).plain rfl).1
  have outer : index.target package below =
      .here (Text.segments package ++ child :: path.names) := by
    refine expand_declared read isModule isInside rfl (fun target bound => ?_) path.names
    exact absurd (List.mem_map_of_mem bound) unbound
  have inner : index.target (subpackage package child) path =
      .here (Text.segments package ++ child :: path.names) := by
    rw [List.append_cons, ← segments_subpackage isPackage isName]
    exact expand_declared read isChild member declared own (behind.map Segment.name)
  have arguments : below.arguments = path.arguments := by
    simp [below, path, PathExpr.arguments, List.getLast?_cons_cons]
  refine ⟨outer, inner.trans outer.symm, fun refs resolved => ?_⟩
  obtain ⟨front, last, split⟩ : ∃ front last, path.names = front ++ [last] :=
    ⟨_, _, (List.dropLast_concat_getLast (List.cons_ne_nil first.name _)).symm⟩
  have place : Text.segments package ++ child :: path.names =
      (Text.segments package ++ child :: front) ++ [last] := by rw [split]; simp
  rw [place] at outer inner
  exact pathRef_eq_iff_arguments outer inner (by simp) arguments resolved

/-- The block of the only module among some items, with its name. -/
def soleBlock? : List Item → Option (String × List Item)
  | [.module name block] => some (name, block)
  | _ => none

theorem eq_of_soleBlock? {child : String} (h : soleBlock? items = some (child, inner)) :
    items = [.module child inner] := by
  unfold soleBlock? at h
  split at h <;> cases h
  rfl

/-- Behind a child module, `Wrap<u8>` is what it is inside, as `u8` is the same in both. -/
theorem applied_child_path_agrees :
    ∃ items inner, parse? "mod m { pub struct Wrap<A>(A); use other::Item; }" = some items ∧
      moduleItems? items "self" = some items ∧ .module "m" inner ∈ items ∧
      "m" ∉ (items.flatMap Item.bindings).map Prod.fst ∧
      moduleItems? items (subpackage "self" "m") = some inner ∧
      (∃ item ∈ inner, item.declaration? = some ("Wrap", .concrete)) ∧
      (∀ target, ("Wrap", target) ∈ inner.flatMap Item.bindings → target.head? = some "Wrap") ∧
      let index := ModuleIndex.ofItems items
      let wrap : Segment := ⟨"Wrap", .angled false [.type (namedType [] "u8")] false⟩
      index.pathRef "self" ⟨false, [bareSegment "m", wrap]⟩ =
        index.pathRef (subpackage "self" "m") ⟨false, [wrap]⟩ := by
  have evaluated : (parse? "mod m { pub struct Wrap<A>(A); use other::Item; }").bind (fun items =>
      (soleBlock? items).map fun block =>
        (block.1 :: (block.2.flatMap Item.bindings).map Prod.fst,
          block.2.filterMap Item.declaration?,
          ["self", subpackage "self" "m"].map fun package =>
            (ModuleIndex.ofItems items).typeRef package (namedType [] "u8"))) =
      some (["m", "Item"], [("Wrap", .concrete)], [.external "u8", .external "u8"]) := by
    decide +kernel
  obtain ⟨items, read, found⟩ := Option.bind_eq_some_iff.mp evaluated
  obtain ⟨⟨child, inner⟩, isSole, found⟩ := Option.map_eq_some_iff.mp found
  obtain rfl := eq_of_soleBlock? isSole
  simp only [Prod.mk.injEq, List.map_cons, List.map_nil, List.cons.injEq, and_true] at found
  obtain ⟨⟨rfl, bound⟩, declarations, outside, inside⟩ := found
  have isChild : moduleItems? [.module "m" inner] (subpackage "self" "m") = some inner := by
    have other : (subpackage "self" "m" == "self") = false := by decide +kernel
    simp [moduleItems?, fileModules, modulesIn, modulesOf, rootPackage, List.lookup_cons, other]
  have unbound : "m" ∉ ([Item.module "m" inner].flatMap Item.bindings).map Prod.fst :=
    List.not_mem_nil
  have own : ∀ target, ("Wrap", target) ∈ inner.flatMap Item.bindings →
      target.head? = some "Wrap" := by
    intro target member
    have among : "Wrap" ∈ (inner.flatMap Item.bindings).map Prod.fst := List.mem_map_of_mem member
    exact absurd (bound ▸ among) (by decide)
  obtain ⟨item, member, declared⟩ : ∃ item ∈ inner, item.declaration? = some ("Wrap", .concrete) :=
    List.mem_filterMap.mp (declarations ▸ List.mem_cons_self)
  refine ⟨_, inner, read, moduleItems?_root _, List.mem_singleton_self _, unbound, isChild,
    ⟨item, member, declared⟩, own, ?_⟩
  let wrap : Segment := ⟨"Wrap", .angled false [.type (namedType [] "u8")] false⟩
  have agree := child_paths_agree read (moduleItems?_root _) (List.mem_singleton_self _) unbound
    isChild member (show item.declaration? = some (wrap.name, .concrete) from declared) own []
  refine (agree.2.2 [.external "u8"] ?_).mpr ?_
  · simp [wrap, PathExpr.arguments, ModuleIndex.argumentsRefs, ModuleIndex.argumentRefs,
      rootPackage, outside]
  · simp [wrap, PathExpr.arguments, ModuleIndex.argumentsRefs, ModuleIndex.argumentRefs, inside,
      rootPackage]

/-- Where the child imports the name, or the argument is only declared inside it, the two paths
refer to different things. -/
theorem child_paths_differ :
    ∃ items, parse? "mod m { pub use self::inner::Token; pub mod inner { pub struct Token; }
        pub struct Wrap<A>(A); pub struct Item; }" = some items ∧
      let index := ModuleIndex.ofItems items
      let token := bareSegment "Token"
      let wrap : Segment := ⟨"Wrap", .angled false [.type (namedType [] "Item")] false⟩
      items.flatMap Item.bindings = [] ∧
      index.pathRef "self" ⟨false, [bareSegment "m", token]⟩ = .declared ⟨"self::m", "Token"⟩ ∧
      index.pathRef "self::m" ⟨false, [token]⟩ = .declared ⟨"self::m::inner", "Token"⟩ ∧
      index.pathRef "self" ⟨false, [bareSegment "m", wrap]⟩ =
        .generic ⟨"self::m", "Wrap"⟩ [.external "Item"] ∧
      index.pathRef "self::m" ⟨false, [wrap]⟩ =
        .generic ⟨"self::m", "Wrap"⟩ [.declared ⟨"self::m", "Item"⟩] := by
  have evaluated : (parse? "mod m { pub use self::inner::Token; pub mod inner { pub struct Token; }
        pub struct Wrap<A>(A); pub struct Item; }").map (fun items =>
      let index := ModuleIndex.ofItems items
      let token := bareSegment "Token"
      let wrap : Segment := ⟨"Wrap", .angled false [.type (namedType [] "Item")] false⟩
      (items.flatMap Item.bindings,
        [index.pathRef "self" ⟨false, [bareSegment "m", token]⟩,
          index.pathRef "self::m" ⟨false, [token]⟩,
          index.pathRef "self" ⟨false, [bareSegment "m", wrap]⟩,
          index.pathRef "self::m" ⟨false, [wrap]⟩])) =
      some ([], [.declared ⟨"self::m", "Token"⟩, .declared ⟨"self::m::inner", "Token"⟩,
        .generic ⟨"self::m", "Wrap"⟩ [.external "Item"],
        .generic ⟨"self::m", "Wrap"⟩ [.declared ⟨"self::m", "Item"⟩]]) := by decide +kernel
  obtain ⟨items, read, found⟩ := Option.map_eq_some_iff.mp evaluated
  simp only [Prod.mk.injEq, List.cons.injEq, and_true] at found
  exact ⟨items, read, found⟩

end MiddlewareStack.Source
