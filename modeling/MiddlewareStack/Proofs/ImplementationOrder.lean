import MiddlewareStack.Proofs.ContractImpls
import MiddlewareStack.Proofs.RecordedText
import MiddlewareStack.Proofs.SourceTable

/-!
# The order of implementations

The methods of a type come from all implementations in the file, in the order of the file. Moving
implementations about leaves everything else that a file declares as it is: the index, the contracts
and the names of the types. A compile looks for methods by name and goes by the first one. So it
does not notice the order as long as no two implementations offer a type methods of different
signatures under one name that it looks for. Where they do, it may.
-/

namespace MiddlewareStack

/-! ## Files with implementations moved -/

namespace Source

/-- The items of a file with implementations moved, at the top level or inside modules. All other
items keep their order. -/
inductive Reordered : List Item → List Item → Prop
  | refl (items : List Item) : Reordered items items
  | cons (item : Item) {items items' : List Item} (rest : Reordered items items') :
    Reordered (item :: items) (item :: items')
  | module (name : String) {inner inner' items items' : List Item} (inside : Reordered inner inner')
    (rest : Reordered items items') :
    Reordered (.module name inner :: items) (.module name inner' :: items')
  | behind (type : TypeExpr) (methods : List Signature) (next : Item) (items : List Item) :
    Reordered (.implementation type methods :: next :: items)
      (next :: .implementation type methods :: items)
  | symm {items items' : List Item} (same : Reordered items items') : Reordered items' items
  | trans {items between items' : List Item} (before : Reordered items between)
    (after : Reordered between items') : Reordered items items'

/-- A type of the file with the methods that its implementations add. -/
def typeIn (items : List Item) (q : QualifiedName) : ConcreteType where
  methods := (placedItems rootPackage items).flatMap (methodsFor (ModuleIndex.ofItems items) q)

namespace Reordered

variable {items items' : List Item}

theorem foldl_addItem (h : Reordered items items') :
    ∀ s : ModuleScope, items.foldl ModuleScope.addItem s = items'.foldl ModuleScope.addItem s := by
  induction h with
  | refl => exact fun _ => rfl
  | cons item _ ih => exact fun s => ih (s.addItem item)
  | module name _ _ _ ih => exact fun s => ih (s.declare name .module)
  | behind => exact fun _ => rfl
  | symm _ ih => exact fun s => (ih s).symm
  | trans _ _ ih ih' => exact fun s => (ih s).trans (ih' s)

theorem scope_eq (h : Reordered items items') :
    ModuleScope.ofItems items = ModuleScope.ofItems items' :=
  h.foldl_addItem {}

theorem addModules_eq (h : Reordered items items') :
    ∀ package modules, addModules package items modules = addModules package items' modules := by
  induction h with
  | refl => exact fun _ _ => rfl
  | cons item _ ih => exact fun package modules => ih package (addModule package item modules)
  | module name inside _ ihInside ih =>
    intro package modules
    simp only [addModules, addModule, ihInside, inside.scope_eq, ih]
  | behind type methods next items =>
    intro package modules
    simp only [addModules, addModule]
  | symm _ ih => exact fun package modules => (ih package modules).symm
  | trans _ _ ih ih' => exact fun package modules => (ih package modules).trans (ih' _ _)

/-- The index of a file does not show where its implementations stand. -/
theorem index_eq (h : Reordered items items') :
    ModuleIndex.ofItems items = ModuleIndex.ofItems items' := by
  simp only [ModuleIndex.ofItems, h.addModules_eq, h.scope_eq]

/-- Every item stands in the package that it stood in. -/
theorem placedItems_perm (h : Reordered items items') :
    ∀ package, (placedItems package items).Perm (placedItems package items') := by
  induction h with
  | refl => exact fun _ => .refl _
  | cons item _ ih => exact fun package => (ih package).append_left (placedItem package item)
  | module name _ _ ihInside ih =>
    exact fun package => (ihInside (subpackage package name)).append (ih package)
  | behind type methods next items =>
    intro package
    simp only [placedItems, ← List.append_assoc]
    exact List.perm_append_comm.append_right _
  | symm _ ih => exact fun package => (ih package).symm
  | trans _ _ ih ih' => exact fun package => (ih package).trans (ih' package)

/-- What is read off the other items comes in the same order. -/
theorem filterMap_placedItems {α : Type} {read : String × Item → Option α}
    (passes : ∀ package type methods, read (package, .implementation type methods) = none)
    (h : Reordered items items') : ∀ package,
      (placedItems package items).filterMap read = (placedItems package items').filterMap read := by
  induction h with
  | refl => exact fun _ => rfl
  | cons item _ ih =>
    intro package
    simp only [placedItems, List.filterMap_append, ih]
  | module name _ _ ihInside ih =>
    intro package
    simp only [placedItems, placedItem, List.filterMap_append, ihInside, ih]
  | behind type methods next items =>
    intro package
    -- only `next` has anything to show, so that it does not matter on which side of it this stands
    have vanishes : (placedItem package (.implementation type methods)).filterMap read = [] := by
      rw [placedItem, List.filterMap_cons, passes, List.filterMap_nil]
      exact fun _ _ isModule => nomatch isModule
    simp only [placedItems, List.filterMap_append, vanishes, List.nil_append]
  | symm _ ih => exact fun package => (ih package).symm
  | trans _ _ ih ih' => exact fun package => (ih package).trans (ih' package)

theorem typeNames_eq (h : Reordered items items') :
    (placedItems rootPackage items).filterMap typeName? =
      (placedItems rootPackage items').filterMap typeName? :=
  h.filterMap_placedItems (fun _ _ _ => rfl) rootPackage

theorem symbolsOf_eq (h : Reordered items items') (index : ModuleIndex) :
    (placedItems rootPackage items).filterMap (symbolOf? index) =
      (placedItems rootPackage items').filterMap (symbolOf? index) :=
  h.filterMap_placedItems (fun _ _ _ => rfl) rootPackage

theorem contains_eq (h : Reordered items items') (path : String) :
    (tableOf items').packages.contains path = (tableOf items).packages.contains path := by
  simp only [tableOf, Table.contains_foldl_insert, symbols, List.any_append, List.any_map,
    h.index_eq, h.typeNames_eq, h.symbolsOf_eq]
  rfl

theorem packagesMatching_eq (h : Reordered items items') (scope : String) :
    (tableOf items').packagesMatching scope = (tableOf items).packagesMatching scope := by
  rw [Table.packagesMatching_eq, h.contains_eq, Table.packagesMatching_eq]

/-! ## What is said of a name -/

/-- A name means the same, or it is that of a type, with the methods of all implementations. -/
theorem lookup_cases (h : Reordered items items') (q : QualifiedName) :
    (tableOf items').lookup q = (tableOf items).lookup q ∨
      (tableOf items).lookup q = some (.concrete (typeIn items q)) ∧
        (tableOf items').lookup q = some (.concrete (typeIn items' q)) := by
  simp only [lookup_tableOf, ← h.index_eq, ← h.typeNames_eq, ← h.symbolsOf_eq]
  by_cases isType : q ∈ (placedItems rootPackage items).filterMap typeName?
  · rw [if_pos isType, if_pos isType, typeIn, typeIn, ← h.index_eq]
    exact .inr ⟨rfl, rfl⟩
  · rw [if_neg isType, if_neg isType]
    exact .inl rfl

theorem contract_eq (h : Reordered items items') (q : QualifiedName) :
    (tableOf items').contract q = (tableOf items).contract q := by
  unfold Table.contract
  rcases h.lookup_cases q with same | ⟨one, other⟩
  · rw [same]
  · rw [one, other]

theorem interface?_eq (h : Reordered items items') (q : QualifiedName) :
    (tableOf items').interface? q = (tableOf items).interface? q := by
  unfold Table.interface?
  rcases h.lookup_cases q with same | ⟨one, other⟩
  · rw [same]
  · simp only [one, other, Option.bind_some, Declaration.interface?]

/-- The methods of a type are the same, in some order. -/
theorem methods_perm (h : Reordered items items') (q : QualifiedName) :
    (typeIn items q).methods.Perm (typeIn items' q).methods := by
  unfold typeIn
  rw [← h.index_eq]
  exact (h.placedItems_perm rootPackage).flatMap_right _

end Reordered

/-! ## What implementations offer -/

/-- The first method of a name that an item offers to those who borrow a type. -/
def offered? (index : ModuleIndex) (q : QualifiedName) (name : String) (placed : String × Item) :
    Option Method :=
  ({ methods := methodsFor index q placed } : ConcreteType).methodSet.find? (·.name = name)

/-- All implementations that offer a type a method of the name offer one of the same signature. -/
def OneSignature (items : List Item) (q : QualifiedName) (name : String) : Prop :=
  ∀ one ∈ placedItems rootPackage items, ∀ other ∈ placedItems rootPackage items,
    ∀ m ∈ offered? (ModuleIndex.ofItems items) q name one,
      ∀ m' ∈ offered? (ModuleIndex.ofItems items) q name other, m.SameSignature m'

/-- The first of some answers is the same in any order, as far as the answers are. -/
theorem map_findSome?_perm {α β γ : Type} {read : α → Option β} {view : β → γ} {xs ys : List α}
    (perm : xs.Perm ys)
    (same : ∀ x ∈ xs, ∀ y ∈ xs, ∀ b ∈ read x, ∀ b' ∈ read y, view b = view b') :
    (ys.findSome? read).map view = (xs.findSome? read).map view := by
  cases first : xs.findSome? read with
  | none =>
    have nowhere : ys.findSome? read = none := by
      rw [List.findSome?_eq_none_iff] at first ⊢
      exact fun y member => first y (perm.mem_iff.mpr member)
    rw [nowhere]
  | some b =>
    obtain ⟨x, member, found⟩ := List.exists_of_findSome?_eq_some first
    cases first' : ys.findSome? read with
    | none =>
      rw [List.findSome?_eq_none_iff] at first'
      cases (first' x (perm.mem_iff.mp member)).symm.trans found
    | some b' =>
      obtain ⟨y, member', found'⟩ := List.exists_of_findSome?_eq_some first'
      simp only [Option.map_some, Option.some.injEq]
      exact same y (perm.mem_iff.mpr member') x member b' found' b found

theorem find?_typeIn (items : List Item) (q : QualifiedName) (name : String) :
    (typeIn items q).methodSet.find? (·.name = name) =
      (placedItems rootPackage items).findSome? (offered? (ModuleIndex.ofItems items) q name) := by
  rw [ConcreteType.methodSet, typeIn, List.filter_flatMap, List.find?_flatMap]
  rfl

/-- What a file offers in any order of its implementations, as far as it offers it alike. -/
theorem Reordered.alikeFor (h : Reordered items items') {q : QualifiedName} {asked : List String}
    (alike : ∀ name ∈ asked, OneSignature items q name) :
    (typeIn items q).AlikeFor asked (typeIn items' q) := by
  intro name isAsked
  constructor
  · rw [find?_typeIn, find?_typeIn, ← h.index_eq]
    apply map_findSome?_perm (h.placedItems_perm rootPackage)
    intro one member other member' m found m' found'
    exact Method.bare_eq_iff.mpr (alike name isAsked one member other member' m found m' found')
  · rw [ConcreteType.declared?, ConcreteType.declared?, Bool.eq_iff_iff, List.find?_isSome,
      List.find?_isSome]
    simp only [(h.methods_perm q).mem_iff]

/-! ## Compiling -/

variable {c : Conventions} {scope name : String} {root : QualifiedName}

/-- Whatever a compile of `root` looks for on the type of a capability, the implementations of that
type offer alike. -/
def Unambiguous (c : Conventions) (root : QualifiedName) (items : List Item) : Prop :=
  ∀ a, (tableOf items).Required c root a → ∀ name ∈ (tableOf items).askedNames c a,
    OneSignature items (c.implementationOf a) name

/-- The tables of both files answer alike wherever a build asks. -/
theorem Reordered.reproduces (h : Reordered items items') (alike : Unambiguous c root items) :
    ReproducesUpTo Method.bare (tableOf items) (tableOf items') c root where
  resolve a required := by
    -- contracts are the same, so that only the type that is bound to `a` is looked at twice
    apply Table.resolve_alike
    · rw [h.contract_eq]
    · intro i i' found found'
      rw [h.interface?_eq, found, Option.some.injEq] at found'
      subst found'
      rw [requiredMethods_transfer (P := fun _ => True) (fun d _ => h.interface?_eq d)
        (fun _ _ _ _ _ _ => trivial) (fun _ _ => trivial)]
    · intro q
      rw [h.interface?_eq]
    · unfold Table.concrete?
      rcases h.lookup_cases (c.implementationOf a) with same | ⟨one, other⟩
      · rw [same]
        cases (tableOf items).lookup (c.implementationOf a) with
        | none => exact .none
        | some kind =>
          cases kind with
          | concrete decl => exact .some (.refl decl)
          | _ => exact .none
      · rw [one, other]
        exact .some (h.alikeFor (alike a required))
  embeds stack _ := by rw [h.contract_eq]
  faults _ _ _ _ d _ e := by rw [h.contract_eq]

/-- Implementations may stand in any order if no two of them offer a type methods of different
signatures under a name that a compile looks for. -/
theorem reordered_compiles_alike (reordered : Reordered items items')
    (alike : Unambiguous c { package := scope, name } items) :
    EndsAlike ((tableOf items).compile c scope name) ((tableOf items').compile c scope name) :=
  Table.endsAlike_of_reproduces (reordered.packagesMatching_eq scope) (reordered.reproduces alike)

instance (items : List Item) (q : QualifiedName) (name : String) :
    Decidable (OneSignature items q name) := by
  unfold OneSignature; infer_instance

/-- In a file that compiles, only the components need to be looked at. -/
theorem unambiguous_of_components {s : CompiledStack}
    (compiled : (tableOf items).compile c scope name = .ok s)
    (alike : ∀ comp ∈ s.graph.components, ∀ asked ∈ (tableOf items).askedNames c comp.capability,
      OneSignature items (c.implementationOf comp.capability) asked) :
    Unambiguous c { package := scope, name } items := by
  obtain ⟨package, found, result⟩ := Table.compile_ok compiled
  obtain ⟨rfl, _⟩ := Table.packagesMatching_eq_singleton.mp found
  intro a required
  obtain ⟨id, present⟩ := result.capability_iff_required.mpr required
  obtain ⟨comp, isComponent, rfl⟩ := Option.map_eq_some_iff.mp present
  exact alike comp (DependencyGraph.mem_components.mpr ⟨id, isComponent⟩)

/-! ## A file with two implementations -/

def plainType (names : List String) : TypeExpr :=
  .path ⟨false, names.map fun name => ⟨name, .none⟩⟩

/-- A signature that borrows the value it is called on. -/
def borrowing (name : String) (inputs : List Input) (output : Option TypeExpr) : Signature where
  qualifiers := []
  name
  generics := []
  inputs := .receiver [] (some none) false none :: inputs
  trailing := false
  variadic := []
  output
  conditions := []

def runSignature : Signature :=
  borrowing "run" [.typed [] { name? := some "req", tokens := [.ident "req"] }
    (.reference none false (plainType ["http", "Request"]))] none

def tokenSignature (output : String) : Signature :=
  borrowing "token" [] (some (plainType [output]))

/-- A capability with a `token` that is a `String`, and implementations of the type that is bound to
it. -/
def authFile (blocks : List (List Signature)) : List Item :=
  [.interface "Root" [.trait false false [] ⟨false, [⟨"Auth", .none⟩]⟩] [],
    .interface "Auth" [] [tokenSignature "String"],
    .concrete "AuthMiddleware"] ++
  blocks.map (.implementation (plainType ["AuthMiddleware"]))

theorem authFile_swap (one other : List Signature) :
    Reordered (authFile [one, other]) (authFile [other, one]) :=
  .cons _ (.cons _ (.cons _ (.behind ..)))

theorem auth_compiles_in_either_order :
    let items := authFile [[runSignature], [tokenSignature "String"]]
    let items' := authFile [[tokenSignature "String"], [runSignature]]
    tableOf items ≠ tableOf items' ∧ Reordered items items' ∧
      Unambiguous {} { package := "self", name := "Root" } items ∧
      EndsAlike ((tableOf items).compile {} "self" "Root")
        ((tableOf items').compile {} "self" "Root") := by
  intro items items'
  have evaluated : ((tableOf items).compile {} "self" "Root").toOption.map
      (fun s => s.graph.components.map Component.capability) =
        some [{ package := "self", name := "Auth" }] := by decide +kernel
  obtain ⟨s, compiled, capabilities⟩ := Aggregate.exists_ok_of_read evaluated
  have agreed : ∀ asked ∈ (tableOf items).askedNames {} { package := "self", name := "Auth" },
      OneSignature items { package := "self", name := "AuthMiddleware" } asked := by
    decide +kernel
  have unambiguous : Unambiguous {} { package := "self", name := "Root" } items := by
    apply unambiguous_of_components compiled
    intro comp member
    have isAuth : comp.capability ∈ s.graph.components.map Component.capability :=
      List.mem_map_of_mem member
    rw [capabilities, List.mem_singleton] at isAuth
    rw [isAuth]
    exact agreed
  have reordered : Reordered items items' := authFile_swap _ _
  exact ⟨by decide +kernel, reordered, unambiguous, reordered_compiles_alike reordered unambiguous⟩

/-- Of two methods of one name the first decides, so that the capability is only provided in one
order of the implementations. -/
theorem first_token_decides :
    let items := authFile [[runSignature, tokenSignature "u64"], [tokenSignature "String"]]
    let items' := authFile [[tokenSignature "String"], [runSignature, tokenSignature "u64"]]
    Reordered items items' ∧
      (tableOf items).compile {} "self" "Root" =
        .error (.implementationMismatched { package := "self", name := "Auth" }
          { package := "self", name := "AuthMiddleware" } "token") ∧
      (∃ s, (tableOf items').compile {} "self" "Root" = .ok s ∧ s.order = [0]) ∧
      ¬EndsAlike ((tableOf items).compile {} "self" "Root")
        ((tableOf items').compile {} "self" "Root") := by
  intro items items'
  have failed : (tableOf items).compile {} "self" "Root" =
      .error (.implementationMismatched { package := "self", name := "Auth" }
        { package := "self", name := "AuthMiddleware" } "token") := by
    decide +kernel
  have evaluated : ((tableOf items').compile {} "self" "Root").toOption.map CompiledStack.order =
      some [0] := by decide +kernel
  obtain ⟨s, compiled, order⟩ := Aggregate.exists_ok_of_read evaluated
  refine ⟨authFile_swap _ _, failed, ⟨s, compiled, order⟩, fun alike => ?_⟩
  rw [failed, compiled] at alike
  cases alike

end Source

end MiddlewareStack
