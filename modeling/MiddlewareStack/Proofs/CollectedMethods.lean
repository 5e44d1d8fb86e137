import MiddlewareStack.Proofs.SourceTable
import MiddlewareStack.Source.TableBuilder

/-!
# The methods that a table collects

Building the table of a file in one walk comes to the same as declaring its symbols one after
another (`buildTable_eq`). In the table a type has the methods of the blocks that are for it, in the
order of the file and each once, wherever the type and the blocks stand (`methods_collected`).
-/

namespace MiddlewareStack.Source

variable {index : ModuleIndex} {package : String} {items : List Item}

/-! ## One walk -/

/-- What is collected for a name grows by what is put there, and for no other name. -/
theorem lookup_collectFor (target name : QualifiedName) (methods : List Method)
    (collected : List (QualifiedName × List Method)) :
    ((collectFor target methods collected).lookup name).getD [] =
      (collected.lookup name).getD [] ++ if target = name then methods else [] := by
  induction collected with
  | nil =>
    rw [collectFor, KeyedMap.lookup_cons_ite]
    by_cases same : target = name
    · simp [same]
    · simp [same, Ne.symm same]
  | cons entry rest ih =>
    obtain ⟨key, found⟩ := entry
    rw [collectFor]
    by_cases here : key = target
    · subst here
      rw [if_pos rfl, KeyedMap.lookup_cons_ite, KeyedMap.lookup_cons_ite]
      by_cases same : name = key
      · simp [same]
      · simp [same, Ne.symm same]
    · rw [if_neg here, KeyedMap.lookup_cons_ite, KeyedMap.lookup_cons_ite]
      by_cases same : name = key
      · subst same
        simp [Ne.symm here]
      · simpa [same] using ih

/-- From one state to another, a walk has added what some items declare. -/
structure TableBuilder.Adds (index : ModuleIndex) (placed : List (String × Item))
    (b after : TableBuilder) : Prop where
  table : after.table = (placed.filterMap (symbolOf? index)).foldl
    (fun t symbol => t.insert symbol.1 symbol.2) b.table
  types : after.types = b.types ++ placed.filterMap typeName?
  collected : ∀ name, (after.collected.lookup name).getD [] =
    (b.collected.lookup name).getD [] ++ placed.flatMap (methodsFor index name)

namespace TableBuilder

theorem Adds.none (b : TableBuilder) : Adds index [] b b :=
  ⟨rfl, by simp, by simp⟩

theorem Adds.trans {placed placed' : List (String × Item)} {b middle after : TableBuilder}
    (first : Adds index placed b middle) (second : Adds index placed' middle after) :
    Adds index (placed ++ placed') b after where
  table := by rw [second.table, first.table, List.filterMap_append, List.foldl_append]
  types := by rw [second.types, first.types, List.filterMap_append, List.append_assoc]
  collected name := by
    rw [second.collected, first.collected, List.flatMap_append, List.append_assoc]

theorem add_adds (package : String) (b : TableBuilder) (item : Item) :
    Adds index [(package, item)] b (b.add index package item) := by
  cases item with
  | interface | synonym =>
    exact ⟨rfl, by simp [add, declare, typeName?], by simp [add, declare, methodsFor]⟩
  | concrete => exact ⟨rfl, by simp [add, typeName?], by simp [add, methodsFor]⟩
  | implementation type methods =>
    cases found : declarationOf? (index.typeRef package type) with
    | none =>
      have same : b.add index package (.implementation type methods) = b := by
        simp [add, collect, found]
      rw [same]
      exact ⟨rfl, by simp [typeName?], by simp [methodsFor, found]⟩
    | some target =>
      have same : b.add index package (.implementation type methods) =
          { b with collected :=
            collectFor target (methods.map (Signature.method index package)) b.collected } := by
        simp [add, collect, found]
      rw [same]
      refine ⟨rfl, by simp [typeName?], fun name => ?_⟩
      rw [lookup_collectFor, List.flatMap_singleton, methodsFor, found]
      simp only [Option.some.injEq]
  | module | distantModule | imports | other =>
    exact ⟨rfl, by simp [add, typeName?], by simp [add, methodsFor]⟩

mutual

/-- A walk adds the items of a package and of the modules inside it, in their order. -/
theorem visitAll_adds (package : String) : ∀ (items : List Item) (b : TableBuilder),
    Adds index (placedItems package items) b (visitAll index package items b)
  | [], b => .none b
  | first :: rest, b => by
    rw [visitAll, placedItems]
    exact (visit_adds package first b).trans (visitAll_adds package rest _)

theorem visit_adds (package : String) : ∀ (item : Item) (b : TableBuilder),
    Adds index (placedItem package item) b (visit index package item b)
  | .module name items, b => by
    rw [visit, placedItem]
    exact visitAll_adds (subpackage package name) items b
  | .interface .., b | .concrete _, b | .synonym _, b | .implementation .., b
  | .distantModule _, b | .imports _, b | .other, b => by
    simpa only [visit, placedItem] using add_adds package b _

end

/-- What a walk from the start has added is declared in the order of the items, the types last. -/
theorem Adds.finish_eq {placed : List (String × Item)} {b : TableBuilder}
    (h : Adds index placed (start index) b) : b.finish =
      (placed.filterMap (symbolOf? index) ++
        (placed.filterMap typeName?).map (typeSymbol index placed)).foldl
          (fun t symbol => t.insert symbol.1 symbol.2) (start index).table := by
  have methods : ∀ name, (b.collected.lookup name).getD [] =
      placed.flatMap (methodsFor index name) := fun name =>
    (h.collected name).trans (List.nil_append _)
  simp only [finish, h.types, h.table, methods, List.foldl_append, List.foldl_map, typeSymbol]
  rfl

end TableBuilder

/-- The table is what the symbols of the file make up. -/
theorem buildTable_eq (items : List Item) : buildTable items = tableOf items :=
  (TableBuilder.visitAll_adds rootPackage items _).finish_eq

theorem ofSource?_eq {text : String} (read : parse? text = some items) :
    Table.ofSource? text = some (tableOf items) := by
  rw [Table.ofSource?, read, Option.map_some, buildTable_eq]

/-! ## Blocks of methods -/

/-- An implementation: methods for a type, in the package that they stand in. -/
structure Block where
  package : String
  type : TypeExpr
  methods : List Signature

namespace Block

def of? : String × Item → Option Block
  | (package, .implementation type methods) => some { package, type, methods }
  | _ => none

/-- The type of a block is a declaration, by itself or applied to arguments. -/
def IsFor (index : ModuleIndex) (name : QualifiedName) (b : Block) : Prop :=
  index.typeRef b.package b.type = .declared name ∨
    ∃ args, index.typeRef b.package b.type = .generic name args

/-- The methods as the package of the block describes them. -/
def described (index : ModuleIndex) (b : Block) : List Method :=
  b.methods.map (Signature.method index b.package)

end Block

theorem declarationOf?_eq_some {ref : TypeRef} {name : QualifiedName} :
    declarationOf? ref = some name ↔ ref = .declared name ∨ ∃ args, ref = .generic name args := by
  cases ref <;> simp [declarationOf?]

instance (name : QualifiedName) (b : Block) : Decidable (b.IsFor index name) :=
  decidable_of_iff _ declarationOf?_eq_some

/-- The blocks of a file, its modules included, in the order in which they stand. -/
def blocks (items : List Item) : List Block :=
  (placedItems rootPackage items).filterMap Block.of?

/-- What the items of a file add to a type is described by the blocks that are for it. -/
theorem flatMap_methodsFor (name : QualifiedName) (placed : List (String × Item)) :
    placed.flatMap (methodsFor index name) =
      ((placed.filterMap Block.of?).filter (·.IsFor index name)).flatMap (·.described index) := by
  induction placed with
  | nil => rfl
  | cons first rest ih =>
    obtain ⟨package, item⟩ := first
    rw [List.flatMap_cons, ih]
    cases item with
    | implementation type methods =>
      by_cases isFor : Block.IsFor index name { package, type, methods }
      · have target := declarationOf?_eq_some.mpr isFor
        simp [methodsFor, Block.of?, target, isFor, Block.described]
      · have target := mt declarationOf?_eq_some.mp isFor
        simp [methodsFor, Block.of?, target, isFor]
    | _ =>
      rw [List.filterMap_cons_none (by rfl)]
      rfl

theorem Block.IsFor.unique {name other : QualifiedName} {b : Block} (h : b.IsFor index name)
    (h' : b.IsFor index other) : name = other :=
  Option.some.inj ((declarationOf?_eq_some.mpr h).symm.trans (declarationOf?_eq_some.mpr h'))

/-- In the table of a source text, the methods of a type are those of the blocks for it, one block
after another in the order of the file. A block is for one declaration at most, so that no method is
met twice, and the blocks of all other types leave nothing behind: a contract has the methods that
an interface of its name is written with. -/
theorem methods_collected {text : String} (read : parse? text = some items) :
    let index := ModuleIndex.ofItems items
    ∃ t, Table.ofSource? text = some t ∧
      (∀ q decl, t.concrete? q = some decl →
        decl.methods = ((blocks items).filter (·.IsFor index q)).flatMap (·.described index)) ∧
      (∀ b : Block, ∀ q q', b.IsFor index q → b.IsFor index q' → q = q') ∧
      ∀ q i, t.interface? q = some i → ∃ bounds methods,
        (q.package, .interface q.name bounds methods) ∈ placedItems rootPackage items ∧
        i.methods = methods.map (Signature.method index q.package) := by
  intro index
  refine ⟨tableOf items, ofSource?_eq read, fun q decl isType => ?_,
    fun b q q' h h' => h.unique h', fun q i isContract => interface_of_table isContract⟩
  obtain ⟨kind, found, isConcrete⟩ := Option.bind_eq_some_iff.mp isType
  rw [lookup_tableOf] at found
  dsimp only at found
  split at found
  · cases found
    cases isConcrete
    exact flatMap_methodsFor q _
  · -- only types are declared as types
    have declared := List.mem_reverse.mp (KeyedMap.mem_of_lookup_eq_some found)
    obtain ⟨⟨package, item⟩, _, same⟩ := List.mem_filterMap.mp declared
    cases item with
    | interface | synonym =>
      cases same
      cases isConcrete
    | _ => cases same

/-- A type with methods before and behind it, in another module, and of an interface. One
block is for a type from elsewhere. -/
def scatteredSource : String :=
  "impl A \x7b fn early(&self) \x7b\x7d \x7d struct A<T>(T); " ++
  "mod m \x7b use super::A as B; impl B<u8> \x7b fn inside(&self) \x7b\x7d \x7d \x7d " ++
  "impl Vec<A> \x7b fn elsewhere(&self) \x7b\x7d \x7d " ++
  "impl N for A<u8> \x7b fn late(&self) \x7b\x7d \x7d"

theorem scattered_methods_collected :
    ∃ items t decl, parse? scatteredSource = some items ∧
      Table.ofSource? scatteredSource = some t ∧ t.concrete? ⟨"self", "A"⟩ = some decl ∧
      decl.methods.map Method.name = ["early", "inside", "late"] ∧ (blocks items).length = 4 ∧
      decl.methods = ((blocks items).filter
        (·.IsFor (ModuleIndex.ofItems items) ⟨"self", "A"⟩)).flatMap
          (·.described (ModuleIndex.ofItems items)) := by
  have evaluated : (parse? scatteredSource).bind (fun items =>
      ((buildTable items).concrete? ⟨"self", "A"⟩).map fun decl =>
        (decl.methods.map Method.name, (blocks items).length)) =
      some (["early", "inside", "late"], 4) := by decide +kernel
  obtain ⟨items, read, evaluated⟩ := Option.bind_eq_some_iff.mp evaluated
  obtain ⟨t, built, collected, _⟩ := methods_collected read
  obtain rfl : buildTable items = t := by simpa [Table.ofSource?, read] using built
  obtain ⟨decl, isType, shown⟩ := Option.map_eq_some_iff.mp evaluated
  obtain ⟨names, count⟩ := Prod.mk.inj shown
  exact ⟨items, _, decl, read, built, isType, names, count, collected _ decl isType⟩

end MiddlewareStack.Source
