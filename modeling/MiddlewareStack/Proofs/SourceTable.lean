import MiddlewareStack.Proofs.ModuleNames
import MiddlewareStack.Source.Declarations

/-!
# Where the symbols of a file come from

A symbol of the table is one that an item of the file declares, in the package that the item stands
in. A contract has the methods that its interface is written with, and a type those of the
implementations of the file, each resolved in the package it is written in.
-/

namespace MiddlewareStack

namespace Table

variable {t : Table} {q other : QualifiedName} {kind : Declaration}

theorem lookup_eq (t : Table) (q : QualifiedName) :
    t.lookup q = ((t.packageAt q.package).symbols.find? q.name).map Symbol.kind := by
  rw [lookup, packageAt]
  cases t.packages.find? q.package with
  | none => rfl
  | some package => cases found : package.symbols.find? q.name <;> simp [found]

theorem packageAt_insert (path : String) : (t.insert q kind).packageAt path =
    if path = q.package then
      { t.packageAt q.package with
        symbols := (t.packageAt q.package).symbols.insert q.name { name := q, kind } }
    else t.packageAt path := by
  rw [packageAt, insert, KeyedMap.find?_insert]
  split <;> rfl

theorem lookup_insert :
    (t.insert q kind).lookup other = if other = q then some kind else t.lookup other := by
  rw [lookup_eq, packageAt_insert]
  by_cases package : other.package = q.package
  · rw [if_pos package, KeyedMap.find?_insert, lookup_eq, package]
    by_cases name : other.name = q.name
    · have same : other = q := by
        cases other
        cases q
        simp_all
      simp [same]
    · have ne : other ≠ q := fun same => name (same ▸ rfl)
      simp [name, ne]
  · have ne : other ≠ q := fun same => package (same ▸ rfl)
    rw [if_neg package, if_neg ne, lookup_eq]

theorem lookup_openPackage (path : String) : (t.openPackage path).lookup q = t.lookup q := by
  rw [lookup_eq, lookup_eq, openPackage, packageAt, KeyedMap.find?_insert]
  split
  · next same => rw [same, Option.getD_some]
  · rfl

theorem lookup_opened (paths : List String) :
    (paths.foldl openPackage t).lookup q = t.lookup q := by
  induction paths generalizing t with
  | nil => rfl
  | cons path rest ih => rw [List.foldl_cons, ih, lookup_openPackage]

/-- Of two symbols of one name the later is found. -/
theorem lookup_foldl_insert (symbols : List (QualifiedName × Declaration)) :
    (symbols.foldl (fun t symbol => t.insert symbol.1 symbol.2) t).lookup q =
      (symbols.reverse.lookup q).or (t.lookup q) := by
  induction symbols generalizing t with
  | nil => simp
  | cons symbol rest ih =>
    rw [List.foldl_cons, ih, lookup_insert, List.reverse_cons, List.lookup_append, Option.or_assoc,
      KeyedMap.lookup_cons_ite]
    by_cases same : q = symbol.1 <;> simp [same]

theorem contains_insert (path : String) : (t.insert q kind).packages.contains path =
    (decide (path = q.package) || t.packages.contains path) := by
  rw [KeyedMap.contains, insert, KeyedMap.find?_insert]
  by_cases same : path = q.package <;> simp [same, KeyedMap.contains]

/-- Inserting symbols opens their packages. -/
theorem contains_foldl_insert (symbols : List (QualifiedName × Declaration)) (path : String) :
    (symbols.foldl (fun t symbol => t.insert symbol.1 symbol.2) t).packages.contains path =
      (symbols.any (path = ·.1.package) || t.packages.contains path) := by
  induction symbols generalizing t with
  | nil => rfl
  | cons symbol rest ih =>
    rw [List.foldl_cons, ih, contains_insert, List.any_cons, Bool.or_left_comm, Bool.or_assoc]

theorem contains_opened (paths : List String) (path : String) :
    (paths.foldl openPackage t).packages.contains path =
      (decide (path ∈ paths) || t.packages.contains path) := by
  induction paths generalizing t with
  | nil => simp
  | cons first rest ih =>
    rw [List.foldl_cons, ih, openPackage, KeyedMap.contains, KeyedMap.find?_insert]
    by_cases same : path = first <;> simp [same, KeyedMap.contains]

end Table

namespace Source

variable {items : List Item} {q : QualifiedName} {package : String}

/-- The symbol of a type is known by its name. -/
theorem lookup_typeSymbols (index : ModuleIndex) (placed : List (String × Item))
    (names : List QualifiedName) :
    (names.map (typeSymbol index placed)).lookup q =
      if q ∈ names then some (.concrete { methods := placed.flatMap (methodsFor index q) })
      else none := by
  induction names with
  | nil => simp
  | cons name rest ih =>
    rw [List.map_cons, typeSymbol, KeyedMap.lookup_cons_ite, ih]
    by_cases same : q = name
    · subst same
      simp
    · simp [same]

/-- What a file says of a name. A type counts before all else of that name, and of the others the
last one. -/
theorem lookup_tableOf (items : List Item) (q : QualifiedName) :
    (tableOf items).lookup q =
      let index := ModuleIndex.ofItems items
      let placed := placedItems rootPackage items
      if q ∈ placed.filterMap typeName? then
        some (.concrete { methods := placed.flatMap (methodsFor index q) })
      else (placed.filterMap (symbolOf? index)).reverse.lookup q := by
  have none : Table.empty.lookup q = none := rfl
  rw [tableOf, Table.lookup_foldl_insert, Table.lookup_opened, none, Option.or_none, symbols,
    List.reverse_append, List.lookup_append, ← List.map_reverse, lookup_typeSymbols]
  simp only [List.mem_reverse]
  split <;> rfl

theorem mem_symbols_of_lookup {kind : Declaration} (h : (tableOf items).lookup q = some kind) :
    (q, kind) ∈ symbols (ModuleIndex.ofItems items) items := by
  rw [tableOf, Table.lookup_foldl_insert, Table.lookup_opened] at h
  rcases Option.or_eq_some_iff.mp h with found | ⟨_, empty⟩
  · exact List.mem_reverse.mp (KeyedMap.mem_of_lookup_eq_some found)
  · cases empty

/-- A contract is that of an interface in its package. -/
theorem interface_of_table {i : Interface} (h : (tableOf items).interface? q = some i) :
    ∃ bounds methods,
      (q.package, .interface q.name bounds methods) ∈ placedItems rootPackage items ∧
      i.methods = methods.map (Signature.method (ModuleIndex.ofItems items) q.package) := by
  obtain ⟨kind, found, isInterface⟩ := Option.bind_eq_some_iff.mp h
  rcases List.mem_append.mp (mem_symbols_of_lookup found) with declared | typed
  · obtain ⟨⟨package, item⟩, member, same⟩ := List.mem_filterMap.mp declared
    cases item with
    | interface name bounds methods =>
      cases same
      cases isInterface
      exact ⟨bounds, methods, member, rfl⟩
    | synonym name =>
      cases same
      cases isInterface
    | _ => cases same
  · obtain ⟨name, _, same⟩ := List.mem_map.mp typed
    cases same
    cases isInterface

/-- A method of a type is one of an implementation of the file. -/
theorem method_of_table {decl : ConcreteType} (h : (tableOf items).concrete? q = some decl)
    {m : Method} (listed : m ∈ decl.methods) :
    ∃ package type methods,
      (package, .implementation type methods) ∈ placedItems rootPackage items ∧
      ∃ sig ∈ methods, m = sig.method (ModuleIndex.ofItems items) package := by
  obtain ⟨kind, found, isConcrete⟩ := Option.bind_eq_some_iff.mp h
  rcases List.mem_append.mp (mem_symbols_of_lookup found) with declared | typed
  · obtain ⟨⟨package, item⟩, member, same⟩ := List.mem_filterMap.mp declared
    cases item with
    | interface | synonym =>
      cases same
      cases isConcrete
    | _ => cases same
  · obtain ⟨name, _, same⟩ := List.mem_map.mp typed
    cases same
    cases isConcrete
    obtain ⟨⟨package, item⟩, member, added⟩ := List.mem_flatMap.mp listed
    cases item with
    | implementation type methods =>
      rw [methodsFor] at added
      split at added
      · obtain ⟨sig, among, rfl⟩ := List.mem_map.mp added
        exact ⟨package, type, methods, member, sig, among, rfl⟩
      · cases added
    | _ => cases added

mutual

/-- Items stand in packages. -/
theorem isPackage_of_mem_placedItems {package : String} (isPackage : IsPackage package) :
    ∀ (items : List Item), (∀ item ∈ items, item.Named) →
      ∀ placed ∈ placedItems package items, IsPackage placed.1
  | [], _ => List.forall_mem_nil _
  | first :: rest, named => by
    obtain ⟨isNamed, others⟩ := List.forall_mem_cons.mp named
    rw [placedItems]
    exact List.forall_mem_append.mpr ⟨isPackage_of_mem_placedItem isPackage first isNamed,
      isPackage_of_mem_placedItems isPackage rest others⟩

theorem isPackage_of_mem_placedItem {package : String} (isPackage : IsPackage package) :
    ∀ (item : Item), item.Named → ∀ placed ∈ placedItem package item, IsPackage placed.1
  | .module name items, named => by
    obtain ⟨isName, inside⟩ : IsName name ∧ ∀ item ∈ items, item.Named := by
      cases named with
      | module isName inside => exact ⟨isName.1, inside⟩
    rw [placedItem]
    exact isPackage_of_mem_placedItems (isPackage.subpackage isName) items inside
  | .interface .., _ | .concrete _, _ | .synonym _, _ | .implementation .., _
  | .distantModule _, _ | .imports _, _ | .other, _ => by simpa [placedItem] using isPackage

end

end Source

end MiddlewareStack
