import MiddlewareStack.Proofs.ChildModules
import MiddlewareStack.Proofs.CollectedMethods

/-!
# What the index and the table say of a name

The index of a file and its table are made by walks of their own. Both have one package for every
module. Where every module declares a name once, they also agree on what each name is: the table has
no symbol for a module, and all else has the same class in both (`index_agrees_with_table`).
-/

namespace MiddlewareStack

namespace Declaration

open Source

/-- What kind of item declares such a symbol. -/
def itemClass : Declaration → ItemClass
  | .interface _ => .interface
  | .concrete _ => .concrete
  | .other => .other

end Declaration

namespace Source

variable {items content : List Item} {package name : String} {q : QualifiedName}
  {itemClass : ItemClass} {item : Item}

/-! ## The modules that items stand in -/

def Item.isInline : Item → Bool
  | .module .. => true
  | _ => false

mutual

/-- The items of a package and of the modules inside it are those of one of these modules. Inline
modules themselves are none of them. -/
theorem mem_placedItems_iff {other : String} : ∀ {package : String} (items : List Item),
    (other, item) ∈ placedItems package items ↔ item.isInline = false ∧
      (other = package ∧ item ∈ items ∨
        ∃ content, (other, content) ∈ modulesIn package items ∧ item ∈ content)
  | _, [] => by simp [placedItems, modulesIn]
  | package, first :: rest => by
    rw [placedItems, List.mem_append, mem_placedItem_iff, mem_placedItems_iff rest, modulesIn,
      List.mem_cons]
    simp only [List.mem_append]
    constructor
    · rintro (⟨leaf, ⟨rfl, rfl⟩ | ⟨content, inside, member⟩⟩ |
        ⟨leaf, ⟨rfl, member⟩ | ⟨content, inside, member⟩⟩)
      · exact ⟨leaf, .inl ⟨rfl, .inl rfl⟩⟩
      · exact ⟨leaf, .inr ⟨content, .inl inside, member⟩⟩
      · exact ⟨leaf, .inl ⟨rfl, .inr member⟩⟩
      · exact ⟨leaf, .inr ⟨content, .inr inside, member⟩⟩
    · rintro ⟨leaf, ⟨rfl, rfl | member⟩ | ⟨content, inside | inside, member⟩⟩
      · exact .inl ⟨leaf, .inl ⟨rfl, rfl⟩⟩
      · exact .inr ⟨leaf, .inl ⟨rfl, member⟩⟩
      · exact .inl ⟨leaf, .inr ⟨content, inside, member⟩⟩
      · exact .inr ⟨leaf, .inr ⟨content, inside, member⟩⟩

theorem mem_placedItem_iff {other : String} : ∀ {package : String} (first : Item),
    (other, item) ∈ placedItem package first ↔ item.isInline = false ∧
      (other = package ∧ item = first ∨
        ∃ content, (other, content) ∈ modulesOf package first ∧ item ∈ content)
  | package, .module name items => by
    rw [placedItem, mem_placedItems_iff items, modulesOf]
    simp only [List.mem_append, List.mem_singleton, Prod.mk.injEq]
    constructor
    · rintro ⟨leaf, ⟨rfl, member⟩ | ⟨content, inside, member⟩⟩
      · exact ⟨leaf, .inr ⟨items, .inr ⟨rfl, rfl⟩, member⟩⟩
      · exact ⟨leaf, .inr ⟨content, .inl inside, member⟩⟩
    · rintro ⟨leaf, ⟨rfl, rfl⟩ | ⟨content, inside | ⟨rfl, rfl⟩, member⟩⟩
      · cases leaf
      · exact ⟨leaf, .inr ⟨content, inside, member⟩⟩
      · exact ⟨leaf, .inl ⟨rfl, member⟩⟩
  | package, .interface .. | package, .concrete _ | package, .synonym _
  | package, .implementation .. | package, .distantModule _ | package, .imports _
  | package, .other => by
    simp only [placedItem, modulesOf, List.mem_singleton, Prod.mk.injEq, List.not_mem_nil,
      false_and, exists_false, or_false, iff_and_self]
    rintro ⟨-, rfl⟩
    rfl

end

theorem mem_placedItems : (package, item) ∈ placedItems rootPackage items ↔
    item.isInline = false ∧ ∃ content, (package, content) ∈ fileModules items ∧ item ∈ content := by
  rw [mem_placedItems_iff, fileModules]
  simp only [List.mem_append, List.mem_singleton, Prod.mk.injEq]
  constructor
  · rintro ⟨leaf, ⟨rfl, member⟩ | ⟨content, inside, member⟩⟩
    · exact ⟨leaf, items, .inr ⟨rfl, rfl⟩, member⟩
    · exact ⟨leaf, content, .inl inside, member⟩
  · rintro ⟨leaf, content, inside | ⟨rfl, rfl⟩, member⟩
    · exact ⟨leaf, .inr ⟨content, inside, member⟩⟩
    · exact ⟨leaf, .inl ⟨rfl, member⟩⟩

/-! ## Packages -/

/-- A symbol is declared by an item of its package, which has a class in the index. -/
theorem declaration?_of_symbol {kind : Declaration}
    (h : (q, kind) ∈ symbols (ModuleIndex.ofItems items) items) :
    ∃ item, (q.package, item) ∈ placedItems rootPackage items ∧
      item.declaration? = some (q.name, kind.itemClass) := by
  rcases List.mem_append.mp h with declared | typed
  · obtain ⟨⟨package, item⟩, member, same⟩ := List.mem_filterMap.mp declared
    refine ⟨item, ?_⟩
    cases item with
    | interface | synonym =>
      cases same
      exact ⟨member, rfl⟩
    | _ => cases same
  · obtain ⟨name, isType, same⟩ := List.mem_map.mp typed
    obtain ⟨⟨package, item⟩, member, named⟩ := List.mem_filterMap.mp isType
    refine ⟨item, ?_⟩
    cases item with
    | concrete =>
      cases named
      cases same
      exact ⟨member, rfl⟩
    | _ => cases named

/-- What an item declares is a symbol, unless it is a module. -/
theorem symbol_of_declaration? (member : (q.package, item) ∈ placedItems rootPackage items)
    (declared : item.declaration? = some (q.name, itemClass)) (noModule : itemClass ≠ .module) :
    ∃ kind, (q, kind) ∈ symbols (ModuleIndex.ofItems items) items := by
  cases item with
  | interface | synonym =>
    cases declared
    exact ⟨_, List.mem_append_left _ (List.mem_filterMap.mpr ⟨_, member, rfl⟩)⟩
  | concrete =>
    cases declared
    exact ⟨_, List.mem_append_right _ (List.mem_map_of_mem (List.mem_filterMap.mpr
      ⟨_, member, rfl⟩))⟩
  | module | distantModule =>
    cases declared
    exact absurd rfl noModule
  | implementation | imports | other => cases declared

/-- The table has the packages of the index and no others. -/
theorem packages_tableOf (items : List Item) :
    (tableOf items).packages.keys = (ModuleIndex.ofItems items).packages := by
  refine KeyedMap.keys_eq_of_contains fun path => ?_
  rw [tableOf, Table.contains_foldl_insert, Table.contains_opened, Bool.eq_iff_iff]
  have none : Table.empty.packages.contains path = false := rfl
  have known : path ∈ (ModuleIndex.ofItems items).packages ↔
      (ModuleIndex.ofItems items).modules.contains path := KeyedMap.mem_keys_iff
  simp only [none, Bool.or_false, Bool.or_eq_true, decide_eq_true_eq, List.any_eq_true, known,
    or_iff_right_iff_imp]
  rintro ⟨⟨q, kind⟩, member, rfl⟩
  obtain ⟨item, placed, _⟩ := declaration?_of_symbol member
  obtain ⟨_, content, inside, _⟩ := mem_placedItems.mp placed
  exact known.mp (mem_packages_iff.mpr (List.mem_map_of_mem inside))

/-! ## Names that are declared once -/

/-- The names of the contracts, types, synonyms and modules among some items. -/
def declaredNames (content : List Item) : List String :=
  (content.filterMap Item.declaration?).map Prod.fst

/-- Each module of a file declares a name once. -/
def DeclaresOnce (items : List Item) : Prop :=
  ∀ m ∈ fileModules items, (declaredNames m.2).Nodup

instance : Decidable (DeclaresOnce items) :=
  inferInstanceAs (Decidable (∀ m ∈ fileModules items, (declaredNames m.2).Nodup))

theorem mem_declaredNames (member : item ∈ content)
    (declared : item.declaration? = some (name, itemClass)) : name ∈ declaredNames content :=
  List.mem_map_of_mem (List.mem_filterMap.mpr ⟨item, member, declared⟩)

/-- A module lies below `package`, in the direction of `child`. -/
def IsBelow (package child other : String) : Prop :=
  ∃ rest, (∀ name ∈ child :: rest, IsItemName name) ∧
    Text.segments other = Text.segments package ++ child :: rest

theorem IsBelow.unique {child child' other : String} (h : IsBelow package child other)
    (h' : IsBelow package child' other) : child = child' := by
  obtain ⟨_, _, path⟩ := h
  obtain ⟨_, _, path'⟩ := h'
  exact (List.cons.inj (List.append_cancel_left (path.symm.trans path'))).1

mutual

theorem isBelow_of_mem_modulesIn {package : String} (isPackage : IsPackage package) :
    ∀ (items : List Item), (∀ item ∈ items, item.Named) → ∀ m ∈ modulesIn package items,
      ∃ child ∈ declaredNames items, IsBelow package child m.1
  | [], _ => List.forall_mem_nil _
  | first :: rest, named => by
    obtain ⟨isNamed, others⟩ := List.forall_mem_cons.mp named
    intro m member
    rw [modulesIn] at member
    rcases List.mem_append.mp member with here | later
    · obtain ⟨child, itemClass, declared, below⟩ :=
        isBelow_of_mem_modulesOf isPackage first isNamed m here
      exact ⟨child, mem_declaredNames List.mem_cons_self declared, below⟩
    · obtain ⟨child, member, below⟩ := isBelow_of_mem_modulesIn isPackage rest others m later
      obtain ⟨entry, among, rfl⟩ := List.mem_map.mp member
      obtain ⟨item, member, declared⟩ := List.mem_filterMap.mp among
      exact ⟨entry.1, mem_declaredNames (List.mem_cons_of_mem _ member) declared, below⟩

theorem isBelow_of_mem_modulesOf {package : String} (isPackage : IsPackage package) :
    ∀ (item : Item), item.Named → ∀ m ∈ modulesOf package item,
      ∃ child itemClass, item.declaration? = some (child, itemClass) ∧ IsBelow package child m.1
  | .module name items, named => by
    obtain ⟨isName, inside⟩ : IsItemName name ∧ ∀ item ∈ items, item.Named := by
      cases named with
      | module isName inside => exact ⟨isName, inside⟩
    intro m member
    refine ⟨name, .module, rfl, ?_⟩
    have path := segments_subpackage isPackage isName.1
    rcases List.mem_append.mp member with deeper | here
    · obtain ⟨child, _, rest, areNames, below⟩ :=
        isBelow_of_mem_modulesIn (isPackage.subpackage isName.1) items inside m deeper
      exact ⟨child :: rest, List.forall_mem_cons.mpr ⟨isName, areNames⟩,
        by rw [below, path, List.append_assoc]; rfl⟩
    · obtain rfl := List.mem_singleton.mp here
      exact ⟨[], List.forall_mem_singleton.mpr isName, path⟩
  | .interface .., _ | .concrete _, _ | .synonym _, _ | .implementation .., _
  | .distantModule _, _ | .imports _, _ | .other, _ => by simp [modulesOf]

end

/-- A module has a path of its own among the modules inside it. -/
theorem nodup_concat_modulesIn (isPackage : IsPackage package)
    (named : ∀ item ∈ content, item.Named)
    (once : ((modulesIn package content).map Prod.fst).Nodup) :
    ((modulesIn package content ++ [(package, content)]).map Prod.fst).Nodup := by
  rw [List.map_append, List.nodup_append]
  refine ⟨once, by simp, ?_⟩
  intro path inside other here same
  obtain rfl : other = package := by simpa using here
  obtain ⟨m, member, rfl⟩ := List.mem_map.mp inside
  obtain ⟨child, _, rest, _, below⟩ := isBelow_of_mem_modulesIn isPackage content named m member
  rw [same] at below
  simpa using congrArg List.length below

mutual

/-- Where names are declared once, so are the paths of modules. -/
theorem nodup_modulesIn {package : String} (isPackage : IsPackage package) :
    ∀ (items : List Item), (∀ item ∈ items, item.Named) → (declaredNames items).Nodup →
      (∀ m ∈ modulesIn package items, (declaredNames m.2).Nodup) →
      ((modulesIn package items).map Prod.fst).Nodup
  | [], _, _, _ => .nil
  | first :: rest, named, once, inside => by
    obtain ⟨isNamed, others⟩ := List.forall_mem_cons.mp named
    rw [modulesIn] at inside ⊢
    obtain ⟨insideFirst, insideRest⟩ := List.forall_mem_append.mp inside
    have split : declaredNames (first :: rest) =
        (first.declaration?.toList.map Prod.fst) ++ declaredNames rest := by
      cases declared : first.declaration? <;> simp [declaredNames, declared]
    rw [split, List.nodup_append] at once
    obtain ⟨_, onceRest, apart⟩ := once
    rw [List.map_append, List.nodup_append]
    refine ⟨nodup_modulesOf isPackage first isNamed insideFirst,
      nodup_modulesIn isPackage rest others onceRest insideRest, ?_⟩
    intro path here path' later same
    obtain ⟨m, member, rfl⟩ := List.mem_map.mp here
    obtain ⟨m', member', rfl⟩ := List.mem_map.mp later
    obtain ⟨child, itemClass, declared, below⟩ :=
      isBelow_of_mem_modulesOf isPackage first isNamed m member
    obtain ⟨child', among, below'⟩ := isBelow_of_mem_modulesIn isPackage rest others m' member'
    exact apart child (by simp [declared]) child' among (below.unique (same ▸ below'))

theorem nodup_modulesOf {package : String} (isPackage : IsPackage package) :
    ∀ (item : Item), item.Named → (∀ m ∈ modulesOf package item, (declaredNames m.2).Nodup) →
      ((modulesOf package item).map Prod.fst).Nodup
  | .module name items, named, inside => by
    obtain ⟨isName, insideNamed⟩ : IsName name ∧ ∀ item ∈ items, item.Named := by
      cases named with
      | module isName inside => exact ⟨isName.1, inside⟩
    obtain ⟨deeper, here⟩ := List.forall_mem_append.mp inside
    have below := isPackage.subpackage isName
    exact nodup_concat_modulesIn below insideNamed
      (nodup_modulesIn below items insideNamed (here _ (List.mem_singleton_self _)) deeper)
  | .interface .., _, _ | .concrete _, _, _ | .synonym _, _, _ | .implementation .., _, _
  | .distantModule _, _, _ | .imports _, _, _ | .other, _, _ => .nil

end

theorem DeclaresOnce.nodup_fileModules (once : DeclaresOnce items)
    (named : ∀ item ∈ items, item.Named) : ((fileModules items).map Prod.fst).Nodup := by
  obtain ⟨inside, here⟩ := List.forall_mem_append.mp once
  exact nodup_concat_modulesIn isPackage_root named
    (nodup_modulesIn isPackage_root items named (here _ (List.mem_singleton_self _)) inside)

/-- The class of a name is that of the item that declares it. -/
theorem DeclaresOnce.classOf?_eq_some (once : DeclaresOnce items)
    (named : ∀ item ∈ items, item.Named) :
    (ModuleIndex.ofItems items).classOf? q = some itemClass ↔
      ∃ content, (q.package, content) ∈ fileModules items ∧
        ∃ item ∈ content, item.declaration? = some (q.name, itemClass) := by
  have inModule : ∀ content, (q.package, content) ∈ fileModules items →
      ((ModuleScope.ofItems content).items.find? q.name = some itemClass ↔
        ∃ item ∈ content, item.declaration? = some (q.name, itemClass)) := by
    intro content inside
    rw [ModuleScope.find?_items, lookup_reverse_eq_some_iff (once _ inside), List.mem_filterMap]
  rw [ModuleIndex.classOf?, find?_modules, moduleItems?, Option.bind_map,
    Option.bind_eq_some_iff]
  constructor
  · rintro ⟨content, found, declared⟩
    have inside := (lookup_reverse_eq_some_iff (once.nodup_fileModules named)).mp found
    exact ⟨content, inside, (inModule content inside).mp declared⟩
  · rintro ⟨content, inside, declared⟩
    exact ⟨content, (lookup_reverse_eq_some_iff (once.nodup_fileModules named)).mpr inside,
      (inModule content inside).mpr declared⟩

/-- The class of a symbol in the index is that of what the table has for it. -/
theorem DeclaresOnce.classOf?_of_lookup (once : DeclaresOnce items)
    (named : ∀ item ∈ items, item.Named) {kind : Declaration}
    (found : (tableOf items).lookup q = some kind) :
    (ModuleIndex.ofItems items).classOf? q = some kind.itemClass := by
  obtain ⟨item, placed, declared⟩ := declaration?_of_symbol (mem_symbols_of_lookup found)
  obtain ⟨_, content, inside, member⟩ := mem_placedItems.mp placed
  exact (once.classOf?_eq_some named).mpr ⟨content, inside, item, member, declared⟩

theorem contains_of_symbol {kind : Declaration}
    (member : (q, kind) ∈ symbols (ModuleIndex.ofItems items) items) :
    ((tableOf items).lookup q).isSome := by
  rw [tableOf, Table.lookup_foldl_insert, Option.isSome_or, Bool.or_eq_true,
    List.lookup_isSome_iff]
  exact .inl ⟨_, List.mem_reverse.mpr member, beq_self_eq_true q⟩

/-- The table has no symbol for a module, and one of the same class for every other name of the
index. -/
theorem DeclaresOnce.itemClass_lookup (once : DeclaresOnce items)
    (named : ∀ item ∈ items, item.Named) (q : QualifiedName) :
    ((tableOf items).lookup q).map Declaration.itemClass =
      ((ModuleIndex.ofItems items).classOf? q).filter (· ≠ .module) := by
  have noModule : ∀ kind : Declaration, kind.itemClass ≠ .module := by
    intro kind
    cases kind <;> exact nofun
  cases found : (tableOf items).lookup q with
  | some kind =>
    rw [once.classOf?_of_lookup named found, Option.map_some, Option.filter_some,
      if_pos (decide_eq_true (noModule kind))]
  | none =>
    refine (Option.filter_eq_none_iff.mpr fun itemClass indexed => ?_).symm
    rw [decide_eq_true_eq]
    intro noModule
    obtain ⟨content, inside, item, member, declared⟩ := (once.classOf?_eq_some named).mp indexed
    have leaf : item.isInline = false := by
      cases item with
      | module =>
        cases declared
        exact absurd rfl noModule
      | _ => rfl
    obtain ⟨kind, isSymbol⟩ := symbol_of_declaration?
      (mem_placedItems.mpr ⟨leaf, content, inside, member⟩) declared noModule
    have present := contains_of_symbol isSymbol
    rw [found] at present
    cases present

theorem DeclaresOnce.packages_perm (once : DeclaresOnce items)
    (named : ∀ item ∈ items, item.Named) :
    (ModuleIndex.ofItems items).packages.Perm ((fileModules items).map Prod.fst) :=
  (List.perm_ext_iff_of_nodup (KeyedMap.nodup_keys _) (once.nodup_fileModules named)).mpr
    fun _ => mem_packages_iff

/-- The index and the table of a source text have the same packages. Where every module declares a
name once, there is one for the top level and for each inline module, and both say the same of every
name: that it is a contract, a type, something else, or neither. -/
theorem index_agrees_with_table {text : String} (read : parse? text = some items)
    (once : DeclaresOnce items) :
    let index := ModuleIndex.ofItems items
    ∃ t, Table.ofSource? text = some t ∧ t.packages.keys = index.packages ∧
      index.packages.Perm ((fileModules items).map Prod.fst) ∧
      ∀ q, ((t.interface? q).isSome ↔ index.classOf? q = some .interface) ∧
        ((t.concrete? q).isSome ↔ index.classOf? q = some .concrete) ∧
        (t.lookup q = some .other ↔ index.classOf? q = some .other) ∧
        (t.lookup q = none ↔ index.classOf? q = some .module ∨ index.classOf? q = none) := by
  intro index
  have named := parse?_named read
  refine ⟨tableOf items, ofSource?_eq read, packages_tableOf items, once.packages_perm named,
    fun q => ?_⟩
  have same := once.itemClass_lookup named q
  change _ = (index.classOf? q).filter _ at same
  rw [Table.interface?, Table.concrete?]
  cases found : (tableOf items).lookup q with
  | none =>
    cases indexed : index.classOf? q with
    | none => simp
    | some itemClass =>
      rw [found, indexed, Option.filter_some] at same
      cases itemClass with
      | module => simp
      | _ => cases same
  | some kind =>
    have indexed : index.classOf? q = some kind.itemClass := once.classOf?_of_lookup named found
    rw [indexed]
    cases kind <;> simp [Declaration.itemClass, Declaration.interface?, Declaration.concrete?]

/-- Modules inside modules, one of them elsewhere. -/
def nestedModules : String :=
  "trait A \x7b\x7d type T = u8; mod m \x7b struct B; mod far; mod n \x7b enum E \x7b\x7d \x7d \x7d"

set_option synthInstance.maxSize 2000 in
theorem nested_index_agrees :
    ∃ items t, parse? nestedModules = some items ∧ DeclaresOnce items ∧
      Table.ofSource? nestedModules = some t ∧
      t.packages.keys = ["self", "self::m", "self::m::n"] ∧
      (t.interface? ⟨"self", "A"⟩).isSome ∧ t.lookup ⟨"self", "T"⟩ = some .other ∧
      (t.concrete? ⟨"self::m::n", "E"⟩).isSome ∧ t.lookup ⟨"self::m", "far"⟩ = none := by
  have evaluated : (parse? nestedModules).map (fun items =>
      let index := ModuleIndex.ofItems items
      (decide (DeclaresOnce items), index.packages, index.classOf? ⟨"self", "A"⟩,
        index.classOf? ⟨"self", "T"⟩, index.classOf? ⟨"self::m::n", "E"⟩,
        index.classOf? ⟨"self::m", "far"⟩)) =
      some (true, ["self", "self::m", "self::m::n"], some .interface, some .other, some .concrete,
        some .module) := by decide +kernel
  obtain ⟨items, read, found⟩ := Option.map_eq_some_iff.mp evaluated
  simp only [Prod.mk.injEq, decide_eq_true_eq] at found
  obtain ⟨once, packages, isContract, isOther, isType, isModule⟩ := found
  obtain ⟨t, built, keys, _, agrees⟩ := index_agrees_with_table read once
  exact ⟨items, t, read, once, built, keys.trans packages, (agrees _).1.mpr isContract,
    (agrees _).2.2.1.mpr isOther, (agrees _).2.1.mpr isType, (agrees _).2.2.2.mpr (.inl isModule)⟩

end Source

end MiddlewareStack
