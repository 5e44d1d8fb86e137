import MiddlewareStack.Aggregate
import MiddlewareStack.Proofs.ItemClasses
import MiddlewareStack.Proofs.ReadTypes

/-!
# What emitted paths refer to

Generated code names declarations by their paths from the top level of the file. The text of such a
path is read as its names (`readPath?_pathText`), and leads back to the declaration it was made for
unless the top level imports its first name from elsewhere (`emitted_paths_resolve`). Different
declarations have different paths in any case.
-/

namespace MiddlewareStack

open Source

namespace Source

variable {items : List Item} {q : QualifiedName} {name first second : String}
  {names others : List String}

/-! ## Reading the text of a path -/

/-- A path of names without arguments. -/
def barePath (names : List String) : PathExpr :=
  ⟨false, names.map bareSegment⟩

theorem names_barePath : (barePath names).names = names := by
  rw [PathExpr.names, barePath, List.map_map]
  exact List.map_id names

theorem barePath_tokens_cons : (barePath (first :: second :: others)).tokens =
    .ident first :: .punct ':' true :: .punct ':' false ::
      (barePath (second :: others)).tokens := by
  simp only [barePath, PathExpr.tokens, segmentTokens_eq, List.map_cons, separatedBy_cons,
    List.flatMap_cons, operator_separator, List.append_assoc]
  rfl

theorem isSign_colon : IsSign ':' := by decide

theorem barePath_legible (named : ∀ name ∈ first :: others, IsName name) :
    Legible (barePath (first :: others)).tokens := by
  induction others generalizing first with
  | nil => exact .ident (named first List.mem_cons_self) .nil
  | cons second others ih =>
    obtain ⟨isName, later⟩ := List.forall_mem_cons.mp named
    rw [barePath_tokens_cons]
    exact .ident isName (.joint isSign_colon isSign_colon (.sign isSign_colon (ih later)))

/-- The text of a path has its tokens without blanks between them. -/
theorem spells_pathText (named : ∀ name ∈ first :: others, IsName name) :
    Spells (marksOf (barePath (first :: others)).tokens)
      (Text.pathText (first :: others)).toList := by
  induction others generalizing first with
  | nil =>
    have text : (Text.pathText [first]).toList = first.toList ++ [] := by simp [Text.pathText]
    rw [text]
    exact .word (named first List.mem_cons_self) (by simp [EndsWord]) .nil
  | cons second others ih =>
    obtain ⟨isName, later⟩ := List.forall_mem_cons.mp named
    have marks : marksOf (barePath (first :: second :: others)).tokens =
        .word first :: .sign ':' true :: .sign ':' false ::
          marksOf (barePath (second :: others)).tokens := by
      rw [barePath_tokens_cons]
      rfl
    rw [Text.pathText_cons_cons, marks]
    exact .word isName (endsWord_of_closer (by decide))
      (.sign isSign_colon (fun _ => ⟨':', rfl, isSign_colon⟩)
        (.sign isSign_colon (by simp) (ih later)))

/-- The path that a text is read as. -/
def readPath? (text : String) : Option PathExpr := do
  let tokens ← scan? text.toList
  PathExpr.ofTokens? tokens

/-- The text of a path is read as its names. -/
theorem readPath?_pathText (ne : names ≠ []) (named : ∀ name ∈ names, IsBareName name) :
    readPath? (Text.pathText names) = some (barePath names) := by
  obtain ⟨first, others, rfl⟩ := List.exists_cons_of_ne_nil ne
  have areNames : ∀ name ∈ first :: others, IsName name := fun name member => (named name member).1
  obtain ⟨found, scanned, isFound⟩ :=
    scan?_spelled (barePath_legible areNames) (spells_pathText areNames)
  have reads : ∀ s ∈ bareSegment first :: others.map bareSegment,
      SegmentReads (innerOf found) s := by
    rw [← List.map_cons]
    exact List.forall_mem_map.mpr fun name member => bareSegment_segmentReads (named name member)
  have run := path_reads reads endsType_nil isFound
  rw [List.append_nil] at run
  rw [readPath?, scanned]
  exact readAll_eq_some run

/-! ## The paths of symbols -/

/-- In a package below the top level, the path is that of the package without its first name. -/
theorem filePath_eq (package : q.package = Text.pathText (rootPackage :: names)) :
    q.filePath = Text.pathText (names ++ [q.name]) := by
  cases names with
  | nil =>
    have atRoot : q.package = rootPackage := package
    rw [QualifiedName.filePath, if_pos atRoot]
    simp [Text.pathText]
  | cons first rest =>
    have text : q.package.toList =
        's' :: 'e' :: 'l' :: 'f' :: ':' :: ':' :: (Text.pathText (first :: rest)).toList := by
      rw [package, Text.pathText_cons_cons]
      rfl
    have below : q.package ≠ rootPackage := by
      intro same
      rw [same] at text
      simp [rootPackage] at text
    rw [QualifiedName.filePath, if_neg below, text, pathText_concat (List.cons_ne_nil _ _),
      subpackage]
    simp only [String.ofList_toList]

/-- The path of a symbol is one of names, the first of which is declared at the top level. -/
theorem path_of_symbol (named : ∀ item ∈ items, item.Named) (present : (tableOf items).contains q) :
    ∃ names, q.package = Text.pathText (rootPackage :: names) ∧
      (∀ name ∈ names ++ [q.name], IsItemName name) ∧
      ∃ first ∈ declaredNames items, (names ++ [q.name]).head? = some first := by
  obtain ⟨kind, found⟩ := Option.isSome_iff_exists.mp present
  obtain ⟨item, placed, declared⟩ := declaration?_of_symbol (mem_symbols_of_lookup found)
  obtain ⟨names, areNames, package⟩ : IsPackage q.package :=
    isPackage_of_mem_placedItems isPackage_root items named _ placed
  have segments : Text.segments q.package = rootPackage :: names := by
    rw [package]
    exact segments_pathText (List.forall_mem_cons.mpr ⟨isName_rootPackage, areNames⟩)
      (List.cons_ne_nil _ _)
  obtain ⟨_, content, inside, member⟩ := mem_placedItems.mp placed
  have isName : ∀ name ∈ [q.name], IsItemName name := List.forall_mem_singleton.mpr
    ((named_of_mem_fileModules named _ inside item member).isItemName declared)
  refine ⟨names, package, ?_⟩
  rcases List.mem_append.mp inside with deeper | atTop
  · obtain ⟨child, isDeclared, rest, path, below⟩ :=
      isBelow_of_mem_modulesIn isPackage_root items named _ deeper
    rw [segments] at below
    obtain ⟨_, rfl⟩ := List.cons.inj below
    exact ⟨List.forall_mem_append.mpr ⟨path, isName⟩, child, isDeclared, rfl⟩
  · obtain ⟨top, rfl⟩ := Prod.mk.inj (List.mem_singleton.mp atTop)
    rw [top] at segments
    obtain ⟨_, rfl⟩ := List.cons.inj segments
    exact ⟨isName, q.name, mem_declaredNames member declared, rfl⟩

/-- What a path in the generated code refers to. -/
def emittedPath? (index : ModuleIndex) (text : String) : Option TypeRef := do
  let path ← readPath? text
  return index.pathRef rootPackage path

theorem IsItemName.bare (h : IsItemName name) : IsBareName name :=
  ⟨h.1, fun reserved => by rw [h.2 reserved]; exact List.mem_cons_self⟩

/-- A path that starts with a name of the top level leads into the file. -/
theorem pathRef_barePath {text : String} (read : parse? text = some items)
    (unbound : ∀ name ∈ declaredNames items, name ∉ (items.flatMap Item.bindings).map Prod.fst)
    (isDeclared : first ∈ declaredNames items) (head : (names ++ [name]).head? = some first) :
    (ModuleIndex.ofItems items).pathRef rootPackage (barePath (names ++ [name])) =
      .declared ⟨Text.pathText (rootPackage :: names), name⟩ := by
  obtain ⟨rest, split⟩ := List.head?_eq_some_iff.mp head
  obtain ⟨⟨first, itemClass⟩, among, rfl⟩ := List.mem_map.mp isDeclared
  obtain ⟨item, member, declared⟩ := List.mem_filterMap.mp among
  have leads : (ModuleIndex.ofItems items).target rootPackage (barePath (names ++ [name])) =
      .here (rootPackage :: names ++ [name]) := by
    have top : Text.segments rootPackage = [rootPackage] := by decide +kernel
    have unrooted : (barePath (names ++ [name])).rooted = false := rfl
    simp only [ModuleIndex.target, unrooted, Bool.false_eq_true, if_false, names_barePath]
    have place := expand_declared read (moduleItems?_root items) member declared
      (fun target bound => absurd (List.mem_map_of_mem bound) (unbound first isDeclared)) rest
    rw [List.cons_append, split]
    rwa [top] at place
  have arguments : (ModuleIndex.ofItems items).argumentsRefs rootPackage
      (barePath (names ++ [name])).arguments = some [] := by
    simp [barePath, PathExpr.arguments, bareSegment, ModuleIndex.argumentsRefs]
  exact pathRef_of_here leads (List.cons_ne_nil _ _) arguments

/-- The symbols of a source text have paths of their own. Where the top level imports no name that
it declares, such a path, read at the top level, refers to the symbol. -/
theorem emitted_paths_resolve {text : String} (read : parse? text = some items) :
    let index := ModuleIndex.ofItems items
    ∃ t, Table.ofSource? text = some t ∧
      ((∀ name ∈ declaredNames items, name ∉ (items.flatMap Item.bindings).map Prod.fst) →
        ∀ q, t.contains q → emittedPath? index q.filePath = some (.declared q)) ∧
      ∀ q q', t.contains q → t.contains q' → q.filePath = q'.filePath → q = q' := by
  intro index
  have named := parse?_named read
  refine ⟨tableOf items, ofSource?_eq read, fun unbound q present => ?_,
    fun q q' present present' same => ?_⟩
  · obtain ⟨names, package, areNames, first, isDeclared, head⟩ := path_of_symbol named present
    have readBack : readPath? q.filePath = some (barePath (names ++ [q.name])) := by
      rw [filePath_eq package]
      exact readPath?_pathText (by simp) fun name member => (areNames name member).bare
    have refers := pathRef_barePath read unbound isDeclared head
    rw [← package] at refers
    simp [emittedPath?, readBack, index, refers]
  · obtain ⟨names, package, areNames, _⟩ := path_of_symbol named present
    obtain ⟨names', package', areNames', _⟩ := path_of_symbol named present'
    have path : names ++ [q.name] = names' ++ [q'.name] := by
      rw [← segments_pathText (fun name member => (areNames name member).1) (by simp),
        ← filePath_eq package, same, filePath_eq package',
        segments_pathText (fun name member => (areNames' name member).1) (by simp)]
    obtain ⟨rfl, name⟩ := List.append_inj' path rfl
    exact congrArg₂ QualifiedName.mk (package.trans package'.symm) (List.singleton_inj.mp name)

/-- What the top level imports counts before what it declares. -/
example : (parse? "use x::A; trait A \x7b\x7d").bind (fun items =>
    emittedPath? (ModuleIndex.ofItems items) "A") = some (.external "x::A") := by
  decide +kernel

/-- A type two modules down, one of whose modules has the name of what it imports. -/
def deepSource : String :=
  "use x::z; mod m \x7b use crate::A as n; mod n \x7b struct B; \x7d \x7d trait A \x7b\x7d"

theorem deep_path_resolves :
    ∃ items t, parse? deepSource = some items ∧
      (items.flatMap Item.bindings).map Prod.fst = ["z"] ∧ declaredNames items = ["m", "A"] ∧
      Table.ofSource? deepSource = some t ∧ t.contains ⟨"self::m::n", "B"⟩ ∧
      (⟨"self::m::n", "B"⟩ : QualifiedName).filePath = "m::n::B" ∧
      emittedPath? (ModuleIndex.ofItems items) "m::n::B" =
        some (.declared ⟨"self::m::n", "B"⟩) := by
  have evaluated : (parse? deepSource).map (fun items =>
      ((items.flatMap Item.bindings).map Prod.fst, declaredNames items,
        (buildTable items).contains ⟨"self::m::n", "B"⟩)) =
      some (["z"], ["m", "A"], true) := by decide +kernel
  obtain ⟨items, read, found⟩ := Option.map_eq_some_iff.mp evaluated
  simp only [Prod.mk.injEq] at found
  obtain ⟨bound, declared, present⟩ := found
  obtain ⟨t, built, resolves, _⟩ := emitted_paths_resolve read
  obtain rfl : buildTable items = t := by simpa [Table.ofSource?, read] using built
  have path : (⟨"self::m::n", "B"⟩ : QualifiedName).filePath = "m::n::B" := by decide +kernel
  exact ⟨items, _, read, bound, declared, built, present, path,
    path ▸ resolves (by rw [bound, declared]; decide) _ present⟩

end Source

end MiddlewareStack
