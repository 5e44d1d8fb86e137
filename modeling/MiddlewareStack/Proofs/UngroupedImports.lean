import MiddlewareStack.Proofs.FileModules

/-!
# Ungrouped imports

A group of use trees abbreviates simple uses, a path and a leaf each, which are written one after
the other. An import and the simple uses it abbreviates bring the same names into scope
(`grouping_is_immaterial`).
-/

namespace MiddlewareStack.Source

/-- What a simple use ends with. -/
inductive UseEnd where
  | name (name : String)
  | rename (name newName : String)
  | glob
  deriving DecidableEq, Repr

def UseEnd.tree : UseEnd → UseTree
  | .name leaf => .name leaf
  | .rename leaf newName => .rename leaf newName
  | .glob => .glob

/-- A use without groups. -/
structure SimpleUse where
  path : List String := []
  last : UseEnd
  deriving DecidableEq, Repr

namespace SimpleUse

def tree (use : SimpleUse) : UseTree :=
  use.path.foldr .path use.last.tree

/-- The use one name further behind. -/
def behind (name : String) (use : SimpleUse) : SimpleUse :=
  { use with path := name :: use.path }

def bindings (use : SimpleUse) : List Import :=
  use.last.tree.importsBehind use.path

/-- What a simple use binds, and to which path. The leaf `self` stands for the path before it, under
the last name of that path. Globs, new names that are an underscore, and a `self` with nothing
before it bind nothing. -/
inductive Binds : SimpleUse → Import → Prop
  | name {path : List String} {name : String} (plain : name ≠ "self") :
      Binds ⟨path, .name name⟩ (name, path ++ [name])
  | self {path : List String} {last : String} :
      Binds ⟨path ++ [last], .name "self"⟩ (last, path ++ [last])
  | rename {path : List String} {name newName : String} (plain : name ≠ "self")
      (kept : newName ≠ "_") : Binds ⟨path, .rename name newName⟩ (newName, path ++ [name])
  | renamedSelf {path : List String} {newName : String} (kept : newName ≠ "_") :
      Binds ⟨path, .rename "self" newName⟩ (newName, path)

end SimpleUse

mutual

/-- The simple uses that a tree abbreviates, from left to right. -/
def UseTree.simpleUses : UseTree → List SimpleUse
  | .path name tree => tree.simpleUses.map (SimpleUse.behind name)
  | .name name => [{ last := .name name }]
  | .rename name newName => [{ last := .rename name newName }]
  | .glob => [{ last := .glob }]
  | .group trees => simpleUsesOfAll trees

def simpleUsesOfAll : List UseTree → List SimpleUse
  | [] => []
  | first :: rest => first.simpleUses ++ simpleUsesOfAll rest

end

/-! ## Bindings of simple uses -/

namespace SimpleUse

variable {use : SimpleUse} {found : Import}

theorem importsBehind_foldr_path (last : UseTree) (path before : List String) :
    (path.foldr .path last).importsBehind before = last.importsBehind (before ++ path) := by
  induction path generalizing before with
  | nil => rw [List.foldr_nil, List.append_nil]
  | cons name rest ih =>
    rw [List.foldr_cons, UseTree.importsBehind, ih, List.append_assoc]
    rfl

theorem imports_tree (use : SimpleUse) : use.tree.imports = use.bindings :=
  importsBehind_foldr_path use.last.tree use.path []

theorem bindings_eq_lastImport (path : List String) (name : String) :
    bindings ⟨path, .name name⟩ = lastImport path name := by
  rw [bindings, UseEnd.tree, UseTree.importsBehind]

theorem bindings_eq_renamedImport (path : List String) (name newName : String) :
    bindings ⟨path, .rename name newName⟩ = renamedImport path name newName := by
  rw [bindings, UseEnd.tree, UseTree.importsBehind]

theorem bindings_eq_singleton (h : use.Binds found) : use.bindings = [found] := by
  cases h with
  | name plain => rw [bindings_eq_lastImport, lastImport, if_neg plain]
  | self => simp [bindings_eq_lastImport, lastImport]
  | rename plain kept => rw [bindings_eq_renamedImport, renamedImport, if_neg kept, if_neg plain]
  | renamedSelf kept => rw [bindings_eq_renamedImport, renamedImport, if_neg kept, if_pos rfl]

theorem binds_or_bindings_eq_nil : ∀ use : SimpleUse, (∃ found, use.Binds found) ∨ use.bindings = []
  | ⟨path, .name name⟩ => by
    by_cases plain : name = "self"
    · subst plain
      rcases path.eq_nil_or_concat with rfl | ⟨before, last, rfl⟩
      · exact .inr (bindings_eq_lastImport [] "self")
      · rw [List.concat_eq_append]
        exact .inl ⟨_, .self⟩
    · exact .inl ⟨_, .name plain⟩
  | ⟨path, .rename name newName⟩ => by
    by_cases kept : newName = "_"
    · exact .inr (by rw [bindings_eq_renamedImport, renamedImport, if_pos kept])
    · by_cases plain : name = "self"
      · subst plain
        exact .inl ⟨_, .renamedSelf kept⟩
      · exact .inl ⟨_, .rename plain kept⟩
  | ⟨_, .glob⟩ => .inr (by rw [bindings, UseEnd.tree, UseTree.importsBehind])

/-- A simple use binds one name or none. -/
theorem bindings_eq (use : SimpleUse) :
    (∀ found, use.bindings = [found] ↔ use.Binds found) ∧
      (use.bindings = [] ↔ ∀ found, ¬use.Binds found) := by
  rcases binds_or_bindings_eq_nil use with ⟨found, binds⟩ | nothing
  · have one := bindings_eq_singleton binds
    refine ⟨fun other => ⟨fun same => ?_, bindings_eq_singleton⟩, ?_⟩
    · obtain rfl : found = other := by simpa [one] using same
      exact binds
    · rw [one]
      exact ⟨fun none => absurd none (List.cons_ne_nil _ _), fun none => absurd binds (none found)⟩
  · have unbound : ∀ found, ¬use.Binds found := fun found binds => by
      rw [bindings_eq_singleton binds] at nothing
      exact List.cons_ne_nil _ _ nothing
    refine ⟨fun found => ⟨fun one => ?_, fun binds => absurd binds (unbound found)⟩, ?_⟩
    · rw [nothing] at one
      cases one
    · exact ⟨fun _ => unbound, fun _ => nothing⟩

end SimpleUse

/-! ## Bindings of trees -/

/-- A group at the end of a path distributes over it. -/
theorem flatMap_bindings_behind (name : String) (before : List String) (uses : List SimpleUse) :
    ((uses.map (SimpleUse.behind name)).flatMap fun use =>
      use.last.tree.importsBehind (before ++ use.path)) =
      uses.flatMap fun use => use.last.tree.importsBehind (before ++ [name] ++ use.path) := by
  rw [List.flatMap_map]
  simp only [SimpleUse.behind, List.append_assoc, List.singleton_append]

mutual

theorem UseTree.importsBehind_eq (before : List String) : ∀ tree : UseTree,
    tree.importsBehind before =
      tree.simpleUses.flatMap fun use => use.last.tree.importsBehind (before ++ use.path)
  | .path name tree => by
    rw [UseTree.importsBehind, UseTree.simpleUses, flatMap_bindings_behind,
      UseTree.importsBehind_eq (before ++ [name]) tree]
  | .name leaf => by simp [UseTree.simpleUses, UseEnd.tree]
  | .rename leaf newName => by simp [UseTree.simpleUses, UseEnd.tree]
  | .glob => by simp [UseTree.simpleUses, UseEnd.tree]
  | .group trees => by
    rw [UseTree.importsBehind, UseTree.simpleUses, importsOfAll_eq before trees]

theorem importsOfAll_eq (before : List String) : ∀ trees : List UseTree,
    importsOfAll before trees =
      (simpleUsesOfAll trees).flatMap fun use => use.last.tree.importsBehind (before ++ use.path)
  | [] => rfl
  | first :: rest => by
    rw [importsOfAll, simpleUsesOfAll, List.flatMap_append, UseTree.importsBehind_eq before first,
      importsOfAll_eq before rest]

end

theorem UseTree.imports_eq (tree : UseTree) :
    tree.imports = tree.simpleUses.flatMap SimpleUse.bindings :=
  tree.importsBehind_eq []

/-- There is nothing to distribute in a simple use. -/
theorem SimpleUse.simpleUses_tree : ∀ use : SimpleUse, use.tree.simpleUses = [use]
  | ⟨[], .name _⟩ | ⟨[], .rename _ _⟩ | ⟨[], .glob⟩ => by
    rw [tree, List.foldr_nil, UseEnd.tree, UseTree.simpleUses]
  | ⟨name :: rest, last⟩ => by
    have shorter : (rest.foldr .path last.tree).simpleUses = [⟨rest, last⟩] :=
      simpleUses_tree ⟨rest, last⟩
    rw [tree, List.foldr_cons, UseTree.simpleUses, shorter]
    rfl

/-! ## Scopes -/

/-- The names that some imports bring into a scope are those of their simple uses. -/
theorem ModuleScope.foldl_addItem_imports (trees : List UseTree) (s : ModuleScope) :
    (trees.map Item.imports).foldl addItem s =
      s.addImports ((trees.flatMap UseTree.simpleUses).flatMap SimpleUse.bindings) := by
  have nothing : (trees.map Item.imports).filterMap Item.declaration? = [] := by
    simp [List.filterMap_map, Function.comp_def, Item.declaration?]
  have bindings : (trees.map Item.imports).flatMap Item.bindings =
      (trees.flatMap UseTree.simpleUses).flatMap SimpleUse.bindings := by
    rw [List.flatMap_map, List.flatMap_assoc]
    simp only [Item.bindings, UseTree.imports_eq]
  rw [foldl_addItem, nothing, bindings]
  rfl

/-- Imports bring the same names into scope as the simple uses that they abbreviate, from left to
right. A simple use binds one name or none, and of several bindings of a name the last counts. -/
theorem grouping_is_immaterial (trees : List UseTree) (s : ModuleScope) :
    let uses := trees.flatMap UseTree.simpleUses
    let scope := (trees.map Item.imports).foldl ModuleScope.addItem s
    (uses.map fun use => Item.imports use.tree).foldl ModuleScope.addItem s = scope ∧
      (∀ use : SimpleUse, (∀ found, use.tree.imports = [found] ↔ use.Binds found) ∧
        (use.tree.imports = [] ↔ ∀ found, ¬use.Binds found)) ∧
      ∀ name, scope.imports.find? name =
        ((uses.flatMap fun use => use.tree.imports).reverse.lookup name).or
          (s.imports.find? name) := by
  intro uses scope
  have added : scope = s.addImports (uses.flatMap SimpleUse.bindings) :=
    ModuleScope.foldl_addItem_imports trees s
  refine ⟨?_, fun use => ?_, fun name => ?_⟩
  · have simple : (uses.map SimpleUse.tree).flatMap UseTree.simpleUses = uses := by
      rw [List.flatMap_map]
      simp only [SimpleUse.simpleUses_tree, List.flatMap_singleton']
    have alike := ModuleScope.foldl_addItem_imports (uses.map SimpleUse.tree) s
    rw [simple, ← added, List.map_map] at alike
    exact alike
  · rw [use.imports_tree]
    exact use.bindings_eq
  · simp only [SimpleUse.imports_tree]
    rw [added, ModuleScope.addImports, KeyedMap.find?_foldl_insert]

/-- A group in a group, with all that a leaf can be. -/
example :
    let tree : UseTree := .path "a" (.group [.name "self", .path "b" (.group
      [.name "c", .rename "self" "d", .rename "e" "_"]), .glob])
    tree.simpleUses.map (·.tree.imports) =
      [[("a", ["a"])], [("c", ["a", "b", "c"])], [("d", ["a", "b"])], [], []] := by
  decide +kernel

end MiddlewareStack.Source
