import MiddlewareStack.Proofs.ModuleNames

/-!
# The modules of a file

What the index knows of a package is what the items of one module declare and import: of several
modules with one path the last in the file, and in it of several declarations or imports of one name
the last as well (`find?_modules`, `ModuleScope.find?_items`, `ModuleScope.find?_imports`).
-/

namespace MiddlewareStack.Source

mutual

/-- The modules among some items of a package, each behind those inside it, with their items. -/
def modulesIn (package : String) : List Item → List (String × List Item)
  | [] => []
  | first :: rest => modulesOf package first ++ modulesIn package rest

def modulesOf (package : String) : Item → List (String × List Item)
  | .module name items =>
    modulesIn (subpackage package name) items ++ [(subpackage package name, items)]
  | _ => []

end

/-- All modules of a file, the last of which is its top level. -/
def fileModules (items : List Item) : List (String × List Item) :=
  modulesIn rootPackage items ++ [(rootPackage, items)]

/-- The items of the module that a package is. Of several with one path the last counts. -/
def moduleItems? (items : List Item) (package : String) : Option (List Item) :=
  (fileModules items).reverse.lookup package

namespace Item

/-- What an item brings into the scope of its module, and what kind of thing that is. -/
def declaration? : Item → Option (String × ItemClass)
  | .interface name _ _ => some (name, .interface)
  | .concrete name => some (name, .concrete)
  | .synonym name => some (name, .other)
  | .module name _ => some (name, .module)
  | .distantModule name => some (name, .module)
  | _ => none

/-- The names that an item imports, with the paths they stand for. -/
def bindings : Item → List Import
  | .imports tree => tree.imports
  | _ => []

end Item

variable {items content : List Item} {package name : String}

theorem lookup_map_snd {α β : Type} (f : α → β) (key : String) (entries : List (String × α)) :
    (entries.map fun entry => (entry.1, f entry.2)).lookup key = (entries.lookup key).map f := by
  induction entries with
  | nil => rfl
  | cons entry rest ih =>
    rw [List.map_cons, KeyedMap.lookup_cons_ite, ih, KeyedMap.lookup_cons_ite]
    split <;> rfl

theorem lookup_reverse_eq_none {α : Type} {key : String} {entries : List (String × α)}
    (absent : key ∉ entries.map Prod.fst) : entries.reverse.lookup key = none := by
  refine List.lookup_eq_none_iff.mpr fun entry member => ?_
  rw [bne_iff_ne]
  rintro rfl
  exact absent (List.mem_map_of_mem (List.mem_reverse.mp member))

/-- Where no key occurs twice, the last entry of a key is the only one. -/
theorem lookup_reverse_eq_some_iff {α : Type} {entries : List (String × α)} {key : String}
    {value : α} (once : (entries.map Prod.fst).Nodup) :
    entries.reverse.lookup key = some value ↔ (key, value) ∈ entries := by
  have reversed : (entries.reverse.map Prod.fst).Nodup :=
    (entries.reverse_perm.map Prod.fst).nodup_iff.mpr once
  rw [KeyedMap.lookup_eq_some_iff_mem reversed, List.mem_reverse]

/-! ## The scope of a module -/

namespace ModuleScope

theorem addItem_eq (scope : ModuleScope) (item : Item) :
    scope.addItem item = {
      items := item.declaration?.toList.foldl (fun m found => m.insert found.1 found.2) scope.items
      imports := item.bindings.foldl (fun m found => m.insert found.1 found.2) scope.imports } := by
  cases item <;> rfl

theorem foldl_addItem (content : List Item) (scope : ModuleScope) :
    content.foldl addItem scope = {
      items := (content.filterMap Item.declaration?).foldl
        (fun m found => m.insert found.1 found.2) scope.items
      imports := (content.flatMap Item.bindings).foldl
        (fun m found => m.insert found.1 found.2) scope.imports } := by
  induction content generalizing scope with
  | nil => rfl
  | cons first rest ih =>
    rw [List.foldl_cons, ih, addItem_eq, List.flatMap_cons, List.foldl_append]
    cases declared : first.declaration? <;> simp [declared]

/-- A name has the kind of its last declaration. -/
theorem find?_items (content : List Item) (name : String) :
    (ofItems content).items.find? name =
      (content.filterMap Item.declaration?).reverse.lookup name := by
  rw [ofItems, foldl_addItem, KeyedMap.find?_foldl_insert]
  exact Option.or_none

/-- A name stands for the path that it is bound to last. -/
theorem find?_imports (content : List Item) (name : String) :
    (ofItems content).imports.find? name = (content.flatMap Item.bindings).reverse.lookup name := by
  rw [ofItems, foldl_addItem, KeyedMap.find?_foldl_insert]
  exact Option.or_none

theorem contains_items {item : Item} {itemClass : ItemClass} (member : item ∈ content)
    (declared : item.declaration? = some (name, itemClass)) :
    (ofItems content).items.contains name := by
  rw [KeyedMap.contains, find?_items, List.lookup_isSome_iff]
  exact ⟨_, List.mem_reverse.mpr (List.mem_filterMap.mpr ⟨item, member, declared⟩),
    beq_self_eq_true name⟩

/-- A name that is bound once stands for what it is bound to. -/
theorem find?_imports_of_once {target : List String}
    (bound : (name, target) ∈ content.flatMap Item.bindings)
    (once : ((content.flatMap Item.bindings).map Prod.fst).count name = 1) :
    (ofItems content).imports.find? name = some target := by
  obtain ⟨before, after, split⟩ := List.append_of_mem bound
  rw [split, List.map_append, List.map_cons, List.count_append, List.count_cons_self] at once
  have absent : name ∉ after.map Prod.fst := List.count_eq_zero.mp (by omega)
  rw [find?_imports, split, List.reverse_append, List.reverse_cons, List.append_assoc,
    List.lookup_append, lookup_reverse_eq_none absent]
  simp

end ModuleScope

/-! ## The modules of the index -/

mutual

theorem addModules_eq (package : String) : ∀ (items : List Item) (modules : KeyedMap ModuleScope),
    addModules package items modules =
      ((modulesIn package items).map fun m => (m.1, ModuleScope.ofItems m.2)).foldl
        (fun m found => m.insert found.1 found.2) modules
  | [], _ => rfl
  | first :: rest, modules => by
    rw [addModules, addModules_eq package rest, addModule_eq package first, modulesIn,
      List.map_append, List.foldl_append]

theorem addModule_eq (package : String) : ∀ (item : Item) (modules : KeyedMap ModuleScope),
    addModule package item modules =
      ((modulesOf package item).map fun m => (m.1, ModuleScope.ofItems m.2)).foldl
        (fun m found => m.insert found.1 found.2) modules
  | .module name items, modules => by
    rw [addModule, addModules_eq (subpackage package name) items, modulesOf, List.map_append,
      List.foldl_append]
    rfl
  | .interface .., _ | .concrete _, _ | .synonym _, _ | .implementation .., _
  | .distantModule _, _ | .imports _, _ | .other, _ => by simp [addModule, modulesOf]

end

/-- The index knows the modules of the file, and their scopes. -/
theorem find?_modules (items : List Item) (package : String) :
    (ModuleIndex.ofItems items).modules.find? package =
      (moduleItems? items package).map ModuleScope.ofItems := by
  have inserted : (ModuleIndex.ofItems items).modules =
      ((fileModules items).map fun m => (m.1, ModuleScope.ofItems m.2)).foldl
        (fun m found => m.insert found.1 found.2) .empty := by
    rw [ModuleIndex.ofItems, addModules_eq, fileModules, List.map_append, List.foldl_append]
    rfl
  rw [inserted, KeyedMap.find?_foldl_insert, KeyedMap.find?_empty, Option.or_none,
    ← List.map_reverse, lookup_map_snd, moduleItems?]

theorem find?_modules_of_items (h : moduleItems? items package = some content) :
    (ModuleIndex.ofItems items).modules.find? package = some (ModuleScope.ofItems content) := by
  rw [find?_modules, h, Option.map_some]

mutual

theorem named_of_mem_modulesIn (package : String) : ∀ (items : List Item),
    (∀ item ∈ items, item.Named) → ∀ m ∈ modulesIn package items, ∀ item ∈ m.2, item.Named
  | [], _ => List.forall_mem_nil _
  | first :: rest, named => by
    obtain ⟨isNamed, others⟩ := List.forall_mem_cons.mp named
    rw [modulesIn]
    exact List.forall_mem_append.mpr ⟨named_of_mem_modulesOf package first isNamed,
      named_of_mem_modulesIn package rest others⟩

theorem named_of_mem_modulesOf (package : String) : ∀ (item : Item), item.Named →
    ∀ m ∈ modulesOf package item, ∀ item ∈ m.2, item.Named
  | .module name items, named => by
    have inside : ∀ item ∈ items, item.Named := by
      cases named with
      | module _ inside => exact inside
    rw [modulesOf]
    exact List.forall_mem_append.mpr ⟨named_of_mem_modulesIn _ items inside,
      List.forall_mem_singleton.mpr inside⟩
  | .interface .., _ | .concrete _, _ | .synonym _, _ | .implementation .., _
  | .distantModule _, _ | .imports _, _ | .other, _ => by simp [modulesOf]

end

/-- The items of every module have names for names if those of the file have. -/
theorem named_of_mem_fileModules (named : ∀ item ∈ items, item.Named) :
    ∀ m ∈ fileModules items, ∀ item ∈ m.2, item.Named :=
  List.forall_mem_append.mpr ⟨named_of_mem_modulesIn rootPackage items named,
    List.forall_mem_singleton.mpr named⟩

theorem named_of_moduleItems (named : ∀ item ∈ items, item.Named)
    (h : moduleItems? items package = some content) : ∀ item ∈ content, item.Named :=
  named_of_mem_fileModules named _ (List.mem_reverse.mp (KeyedMap.mem_of_lookup_eq_some h))

/-- The top level is a module of every file, whatever other modules it has. -/
theorem moduleItems?_root (items : List Item) : moduleItems? items rootPackage = some items := by
  rw [moduleItems?, fileModules, List.reverse_append, List.reverse_singleton,
    List.singleton_append, List.lookup_cons_self]

theorem mem_packages_of_items (h : moduleItems? items package = some content) :
    package ∈ (ModuleIndex.ofItems items).packages := by
  rw [ModuleIndex.packages, KeyedMap.mem_keys_iff, find?_modules_of_items h]
  rfl

/-- The packages of the index are the modules of the file. -/
theorem mem_packages_iff : package ∈ (ModuleIndex.ofItems items).packages ↔
    package ∈ (fileModules items).map Prod.fst := by
  rw [ModuleIndex.packages, KeyedMap.mem_keys_iff, find?_modules, Option.isSome_map, moduleItems?,
    List.lookup_isSome_iff]
  simp

end MiddlewareStack.Source
