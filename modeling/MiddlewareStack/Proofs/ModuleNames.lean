import MiddlewareStack.Proofs.NamedItems
import MiddlewareStack.Source.ModuleIndex

/-!
# The names in the index of a file

The packages of a file are named by paths of names from its top level, and its imports stand for
paths of names. Wherever a written path leads, it is therefore told by names, which the text of the
path gives back.
-/

namespace MiddlewareStack

namespace Text

variable {cs rest : List Char} {names others : List String}

theorem splitSegments_of_not_mem (h : ':' ∉ cs) : splitSegments cs = [cs] := by
  induction cs with
  | nil => rfl
  | cons c cs ih =>
    simp only [List.mem_cons, not_or] at h
    obtain ⟨ne, absent⟩ := h
    rw [splitSegments, ih absent]
    rintro _ rfl
    exact fun _ => ne rfl

theorem splitSegments_append (h : ':' ∉ cs) :
    splitSegments (cs ++ ':' :: ':' :: rest) = cs :: splitSegments rest := by
  induction cs with
  | nil => rw [List.nil_append, splitSegments]
  | cons c cs ih =>
    simp only [List.mem_cons, not_or] at h
    obtain ⟨ne, absent⟩ := h
    rw [List.cons_append, splitSegments, ih absent]
    rintro _ rfl
    exact fun _ => ne rfl

theorem pathText_cons_cons (first second : String) (others : List String) :
    (pathText (first :: second :: others)).toList =
      first.toList ++ ':' :: ':' :: (pathText (second :: others)).toList := by
  simp [pathText, String.intercalate_cons_cons]

/-- A path is cut into its segments, of which there is at least one. -/
theorem segments_pathText (ne : names ≠ []) (h : ∀ name ∈ names, ':' ∉ name.toList) :
    segments (pathText names) = names := by
  induction names with
  | nil => exact absurd rfl ne
  | cons first others ih =>
    obtain ⟨noColon, later⟩ := List.forall_mem_cons.mp h
    cases others with
    | nil => simp [segments, pathText, splitSegments_of_not_mem noColon]
    | cons second others =>
      have behind := ih (List.cons_ne_nil _ _) later
      rw [segments] at behind ⊢
      rw [pathText_cons_cons, splitSegments_append noColon, List.map_cons, behind, String.ofList_toList]

theorem mem_pathText {c : Char} (h : c ∈ (pathText names).toList) :
    c = ':' ∨ ∃ name ∈ names, c ∈ name.toList := by
  induction names with
  | nil => simp [pathText] at h
  | cons first others ih =>
    cases others with
    | nil => exact .inr ⟨first, List.mem_singleton_self _, by simpa [pathText] using h⟩
    | cons second others =>
      rw [pathText_cons_cons, List.mem_append, List.mem_cons, List.mem_cons] at h
      rcases h with here | colon | colon | later
      · exact .inr ⟨first, List.mem_cons_self, here⟩
      · exact .inl colon
      · exact .inl colon
      · rcases ih later with colon | ⟨name, member, inside⟩
        · exact .inl colon
        · exact .inr ⟨name, List.mem_cons_of_mem _ member, inside⟩

end Text

namespace Source

variable {name package : String} {names path : List String} {index : ModuleIndex}

theorem IsName.no_colon (h : IsName name) : ':' ∉ name.toList :=
  h.not_mem (by decide) (by decide)

theorem segments_pathText (named : ∀ name ∈ names, IsName name) (ne : names ≠ []) :
    Text.segments (Text.pathText names) = names :=
  Text.segments_pathText ne fun name member => (named name member).no_colon

/-! ## The index -/

/-- The path of a package, by names from the top level of its file. -/
def IsPackage (package : String) : Prop :=
  ∃ names, (∀ name ∈ names, IsName name) ∧ package = Text.pathText (rootPackage :: names)

theorem isName_rootPackage : IsName rootPackage := by decide +kernel

theorem isPackage_root : IsPackage rootPackage :=
  ⟨[], List.forall_mem_nil _, rfl⟩

theorem pathText_concat (ne : names ≠ []) :
    Text.pathText (names ++ [name]) = subpackage (Text.pathText names) name := by
  induction names with
  | nil => exact absurd rfl ne
  | cons first others ih =>
    cases others with
    | nil => simp [Text.pathText, subpackage, String.intercalate_cons_cons]
    | cons second others =>
      have behind := ih (List.cons_ne_nil _ _)
      simp only [Text.pathText, subpackage, List.cons_append] at behind ⊢
      rw [String.intercalate_cons_cons, behind, String.intercalate_cons_cons]
      simp [String.append_assoc]

theorem IsPackage.subpackage (h : IsPackage package) (isName : IsName name) :
    IsPackage (subpackage package name) := by
  obtain ⟨names, named, rfl⟩ := h
  refine ⟨names ++ [name], List.forall_mem_append.mpr ⟨named, by simpa using isName⟩, ?_⟩
  rw [← List.cons_append, pathText_concat (List.cons_ne_nil _ _)]

/-- A package is cut into the names of its path. -/
theorem IsPackage.segments (h : IsPackage package) :
    ∃ names, Text.segments package = rootPackage :: names ∧ ∀ name ∈ names, IsName name := by
  obtain ⟨names, named, rfl⟩ := h
  have all : ∀ name ∈ rootPackage :: names, IsName name :=
    List.forall_mem_cons.mpr ⟨isName_rootPackage, named⟩
  exact ⟨names, segments_pathText all (List.cons_ne_nil _ _), named⟩

/-- The imports of a module stand for paths of names. -/
def ModuleScope.Named (scope : ModuleScope) : Prop :=
  ∀ name target, scope.imports.find? name = some target → ∀ segment ∈ target, IsName segment

theorem ModuleScope.Named.addItem {scope : ModuleScope} {item : Item} (h : scope.Named)
    (named : item.Named) : (scope.addItem item).Named := by
  cases named with
  | @imports tree named =>
    intro name target found
    simp only [ModuleScope.addItem, addImports, KeyedMap.find?_foldl_insert] at found
    rcases Option.or_eq_some_iff.mp found with here | ⟨_, before⟩
    · have member := List.mem_reverse.mp (KeyedMap.mem_of_lookup_eq_some here)
      exact (named.imports _ member).2
    · exact h name target before
  | _ => exact h

theorem ModuleScope.named_ofItems {items : List Item} (h : ∀ item ∈ items, item.Named) :
    (ModuleScope.ofItems items).Named := by
  have all : ∀ (items : List Item) (scope : ModuleScope), scope.Named →
      (∀ item ∈ items, item.Named) → (items.foldl ModuleScope.addItem scope).Named := by
    intro items
    induction items with
    | nil => exact fun _ named _ => named
    | cons first rest ih =>
      intro scope named h
      obtain ⟨isNamed, others⟩ := List.forall_mem_cons.mp h
      exact ih _ (named.addItem isNamed) others
  exact all items {} (by rintro _ _ ⟨⟩) h

/-- Packages are paths of names, and so is what their imports stand for. -/
def ModulesNamed (modules : KeyedMap ModuleScope) : Prop :=
  ∀ package scope, modules.find? package = some scope → IsPackage package ∧ scope.Named

theorem ModulesNamed.insert {modules : KeyedMap ModuleScope} {scope : ModuleScope}
    (h : ModulesNamed modules) (isPackage : IsPackage package) (named : scope.Named) :
    ModulesNamed (modules.insert package scope) := by
  intro other found present
  rw [KeyedMap.find?_insert] at present
  split at present
  · next same =>
    cases present
    exact ⟨same ▸ isPackage, named⟩
  · exact h other found present

mutual

theorem ModulesNamed.addModules {package : String} (isPackage : IsPackage package) :
    ∀ (items : List Item) {modules : KeyedMap ModuleScope}, ModulesNamed modules →
      (∀ item ∈ items, item.Named) → ModulesNamed (addModules package items modules)
  | [], _, h, _ => h
  | first :: rest, _, h, named => by
    obtain ⟨isNamed, others⟩ := List.forall_mem_cons.mp named
    rw [Source.addModules]
    exact addModules isPackage rest (addModule isPackage first h isNamed) others

theorem ModulesNamed.addModule {package : String} (isPackage : IsPackage package) :
    ∀ (item : Item) {modules : KeyedMap ModuleScope}, ModulesNamed modules → item.Named →
      ModulesNamed (addModule package item modules)
  | .module name items, _, h, named => by
    obtain ⟨isName, inside⟩ : IsName name ∧ ∀ item ∈ items, item.Named := by
      cases named with
      | module isName inside => exact ⟨isName.1, inside⟩
    have below := isPackage.subpackage isName
    rw [Source.addModule]
    exact (addModules below items h inside).insert below (ModuleScope.named_ofItems inside)
  | .interface .., _, h, _ | .concrete _, _, h, _ | .synonym _, _, h, _
  | .implementation .., _, h, _ | .distantModule _, _, h, _ | .imports _, _, h, _
  | .other, _, h, _ => h

end

def ModuleIndex.Named (index : ModuleIndex) : Prop :=
  ModulesNamed index.modules

theorem ModuleIndex.named_ofItems {items : List Item} (h : ∀ item ∈ items, item.Named) :
    (ModuleIndex.ofItems items).Named := by
  have empty : ModulesNamed .empty := by rintro _ _ ⟨⟩
  have below : ModulesNamed (addModules rootPackage items .empty) :=
    ModulesNamed.addModules isPackage_root items empty h
  exact below.insert isPackage_root (ModuleScope.named_ofItems h)

theorem ModuleIndex.Named.isPackage (h : index.Named) (member : package ∈ index.packages) :
    IsPackage package := by
  obtain ⟨⟨_, scope⟩, entry, rfl⟩ := List.mem_map.mp member
  exact (h _ scope (KeyedMap.find?_eq_some_iff.mpr entry)).1

/-! ## Where paths lead -/

/-- Places in the file are paths of names from its top level, others paths of names. -/
def Expanded.Named : Expanded → Prop
  | .here segments => segments.head? = some rootPackage ∧ ∀ name ∈ segments, IsName name
  | .elsewhere segments => ∀ name ∈ segments, IsName name

theorem expandSuper_named {home : List String}
    (top : home.head? = some rootPackage) (named : ∀ name ∈ home, IsName name)
    (h : ∀ name ∈ path, IsName name) : (ModuleIndex.expandSuper home path).Named := by
  unfold ModuleIndex.expandSuper
  dsimp only
  split
  · exact h
  · next inside =>
    obtain ⟨others, rfl⟩ := List.head?_eq_some_iff.mp top
    generalize (path.takeWhile (· == "super")).length = ups at inside ⊢
    rw [List.length_cons, Nat.not_ge_eq, Nat.succ_le_succ_iff] at inside
    refine ⟨?_, fun name member => ?_⟩
    · rw [List.length_cons, Nat.succ_sub inside, List.take_succ_cons, List.cons_append,
        List.head?_cons]
    · rcases List.mem_append.mp member with front | behind
      · exact named name (List.mem_of_mem_take front)
      · exact h name (List.mem_of_mem_drop behind)

/-- Paths of names lead to paths of names. -/
theorem ModuleIndex.Named.expand (h : index.Named) (isPackage : IsPackage package)
    (named : ∀ name ∈ path, IsName name) : (index.expand package path).Named := by
  obtain ⟨home, cut, homeNamed⟩ := isPackage.segments
  have inHome : ∀ {rest : List String}, (∀ name ∈ rest, IsName name) →
      (Expanded.here (rootPackage :: home ++ rest)).Named := fun others =>
    ⟨rfl, List.forall_mem_append.mpr
      ⟨List.forall_mem_cons.mpr ⟨isName_rootPackage, homeNamed⟩, others⟩⟩
  unfold ModuleIndex.expand
  generalize maxImports + 1 = limit
  induction limit generalizing path with
  | zero => cases path <;> exact named
  | succ limit ih =>
    cases path with
    | nil => exact named
    | cons first rest =>
      obtain ⟨_, others⟩ := List.forall_mem_cons.mp named
      rw [expandWithin, cut]
      split
      · exact ⟨rfl, List.forall_mem_cons.mpr ⟨isName_rootPackage, others⟩⟩
      split
      · exact inHome others
      split
      · exact expandSuper_named rfl
          (List.forall_mem_cons.mpr ⟨isName_rootPackage, homeNamed⟩) named
      split
      · exact named
      · next scope present =>
        have declared : (if scope.items.contains first then
            Expanded.here (rootPackage :: home ++ first :: rest)
            else .elsewhere (first :: rest)).Named := by
          split
          · exact inHome named
          · exact named
        dsimp only
        generalize (if scope.items.contains first then
          Expanded.here (rootPackage :: home ++ first :: rest)
          else .elsewhere (first :: rest)) = place at declared ⊢
        split
        · next target imported =>
          split
          · exact declared
          · refine ih (List.forall_mem_append.mpr ⟨?_, others⟩)
            exact (h package scope present).2 first target imported
        · exact declared

end Source

end MiddlewareStack
