import Mathlib.Data.List.Flatten
import Mathlib.Data.List.Induction
import Mathlib.Data.List.ReduceOption
import MiddlewareStack.Config.Load

/-!
# Layered configurations

The files that are there are layers over the defaults. A field is in the end what the last layer
that sets it says, whatever the layers say of other fields and whatever was said before. Loading
gives that configuration if each field accepts what it is; it is refused for the first file that
has no layer in it, and otherwise for everything that the fields reject (`load_is_layered`). Of the
reader of a layer nothing is used but that it is a function of the text.
-/

namespace MiddlewareStack

/-! ## Fields -/

inductive ConfigField where
  | implementationSuffix
  | invocationMethod
  | requestType
  | suffix
  | runtimeCrate
  deriving DecidableEq, Repr

/-- All fields, in the order in which their problems are reported. -/
def ConfigField.all : List ConfigField :=
  [.implementationSuffix, .invocationMethod, .requestType, .suffix, .runtimeCrate]

/-- What a configuration has in a field. -/
def Config.value (c : Config) : ConfigField → String
  | .implementationSuffix => c.conventions.implementationSuffix
  | .invocationMethod => c.conventions.invocationMethod
  | .requestType => c.conventions.requestType
  | .suffix => c.output.suffix
  | .runtimeCrate => c.output.runtimeCrate

/-- What a layer sets a field to. -/
def ConfigLayer.value? (layer : ConfigLayer) : ConfigField → Option String
  | .implementationSuffix => layer.implementationSuffix
  | .invocationMethod => layer.invocationMethod
  | .requestType => layer.requestType
  | .suffix => layer.suffix
  | .runtimeCrate => layer.runtimeCrate

namespace Config

/-- A configuration is known by its fields. -/
theorem ext_value {c c' : Config} (same : ∀ field, c.value field = c'.value field) : c = c' := by
  obtain ⟨⟨suffix, method, request⟩, ⟨ending, runtime⟩⟩ := c
  obtain ⟨⟨suffix', method', request'⟩, ⟨ending', runtime'⟩⟩ := c'
  obtain rfl : suffix = suffix' := same .implementationSuffix
  obtain rfl : method = method' := same .invocationMethod
  obtain rfl : request = request' := same .requestType
  obtain rfl : ending = ending' := same .suffix
  obtain rfl : runtime = runtime' := same .runtimeCrate
  rfl

theorem value_merge (c : Config) (layer : ConfigLayer) (field : ConfigField) :
    (c.merge layer).value field = (layer.value? field).getD (c.value field) := by
  cases field <;> rfl

/-- Layers that do not set a field leave it as it is. -/
theorem value_foldl_merge {layers : List ConfigLayer} {field : ConfigField}
    (unset : ∀ layer ∈ layers, layer.value? field = none) (c : Config) :
    (layers.foldl merge c).value field = c.value field := by
  induction layers generalizing c with
  | nil => rfl
  | cons layer rest ih =>
    obtain ⟨here, others⟩ := List.forall_mem_cons.mp unset
    rw [List.foldl_cons, ih others, value_merge, here, Option.getD_none]

end Config

/-- What a field is after some layers: what the last of them to set it says, or the default. -/
inductive Settles (layers : List ConfigLayer) (field : ConfigField) : String → Prop
  | default (unset : ∀ layer ∈ layers, layer.value? field = none) :
      Settles layers field (({} : Config).value field)
  | last {before after : List ConfigLayer} {layer : ConfigLayer} {value : String}
      (split : layers = before ++ layer :: after) (sets : layer.value? field = some value)
      (unset : ∀ later ∈ after, later.value? field = none) : Settles layers field value

namespace Settles

variable {layers : List ConfigLayer} {field : ConfigField} {value : String}

theorem concat (h : Settles layers field value) {layer : ConfigLayer}
    (unset : layer.value? field = none) : Settles (layers ++ [layer]) field value := by
  have still : ∀ {list : List ConfigLayer}, (∀ layer ∈ list, layer.value? field = none) →
      ∀ later ∈ list ++ [layer], later.value? field = none := fun before =>
    List.forall_mem_append.mpr ⟨before, List.forall_mem_singleton.mpr unset⟩
  cases h with
  | default before => exact .default (still before)
  | last split sets after =>
    subst split
    exact .last (List.append_assoc ..) sets (still after)

theorem eq_foldl (h : Settles layers field value) :
    (layers.foldl Config.merge {}).value field = value := by
  cases h with
  | default unset => exact Config.value_foldl_merge unset {}
  | last split sets unset =>
    rw [split, List.foldl_append, List.foldl_cons, Config.value_foldl_merge unset,
      Config.value_merge, sets, Option.getD_some]

theorem foldl (layers : List ConfigLayer) (field : ConfigField) :
    Settles layers field ((layers.foldl Config.merge {}).value field) := by
  induction layers using List.reverseRecOn with
  | nil => exact .default (List.forall_mem_nil _)
  | append_singleton layers layer ih =>
    rw [List.foldl_append, List.foldl_cons, List.foldl_nil, Config.value_merge]
    cases sets : layer.value? field with
    | none => exact ih.concat sets
    | some value => exact .last rfl sets (List.forall_mem_nil _)

end Settles

/-- Each field of the configuration is what some layers make of it, on its own. -/
def Config.SettledBy (c : Config) (layers : List ConfigLayer) : Prop :=
  ∀ field, Settles layers field (c.value field)

theorem Config.settledBy_iff {c : Config} {layers : List ConfigLayer} :
    c.SettledBy layers ↔ layers.foldl merge {} = c := by
  constructor
  · intro settled
    exact ext_value fun field => (settled field).eq_foldl
  · rintro rfl field
    exact .foldl layers field

/-! ## Problems -/

/-- A value that a field does not accept, and why. -/
inductive ConfigField.Rejects : ConfigField → String → ConfigProblem → Prop
  | emptyImplementationSuffix : Rejects .implementationSuffix "" .emptyImplementationSuffix
  | implementationSuffix {value : String} {c : Char} (isPart : c ∈ value.toList)
      (stray : ¬Text.isAlphanumeric c ∧ c ≠ '_') :
      Rejects .implementationSuffix value (.implementationSuffix value)
  | invocationMethod {value : String} (noName : ¬Text.isIdentifier value.toList) :
      Rejects .invocationMethod value (.invocationMethod value)
  | requestType {value : String} (noPath : ¬Text.isPath value.toList) :
      Rejects .requestType value (.requestType value)
  | emptySuffix : Rejects .suffix "" .emptySuffix
  | suffixSeparator {value : String} {c : Char} (isPart : c ∈ value.toList)
      (separates : c = '/' ∨ c = '\\') : Rejects .suffix value (.suffixSeparator value)
  | runtimeCrate {value : String} (noPath : ¬Text.isPath value.toList) :
      Rejects .runtimeCrate value (.runtimeCrate value)

/-- The problems of a value for a field. -/
def ConfigField.problems : ConfigField → String → List ConfigProblem
  | .implementationSuffix, value => Config.implementationSuffixProblems value
  | .invocationMethod, value =>
    Config.problemUnless (Text.isIdentifier value.toList) (.invocationMethod value)
  | .requestType, value => Config.problemUnless (Text.isPath value.toList) (.requestType value)
  | .suffix, value => Config.suffixProblems value
  | .runtimeCrate, value => Config.problemUnless (Text.isPath value.toList) (.runtimeCrate value)

/-- The field that a problem is about. -/
def ConfigProblem.field : ConfigProblem → ConfigField
  | .emptyImplementationSuffix | .implementationSuffix _ => .implementationSuffix
  | .invocationMethod _ => .invocationMethod
  | .requestType _ => .requestType
  | .emptySuffix | .suffixSeparator _ => .suffix
  | .runtimeCrate _ => .runtimeCrate

namespace Config

theorem problems_eq (c : Config) :
    c.problems = ConfigField.all.flatMap fun field => field.problems (c.value field) := by
  simp [problems, ConfigField.all, ConfigField.problems, value]

theorem mem_problemUnless {holds : Bool} {p problem : ConfigProblem} :
    p ∈ problemUnless holds problem ↔ ¬holds ∧ p = problem := by
  cases holds <;> simp [problemUnless]

theorem mem_implementationSuffixProblems {value : String} {p : ConfigProblem} :
    p ∈ implementationSuffixProblems value ↔
      value = "" ∧ p = .emptyImplementationSuffix ∨
      (∃ c ∈ value.toList, ¬Text.isAlphanumeric c ∧ c ≠ '_') ∧
        p = .implementationSuffix value := by
  unfold implementationSuffixProblems
  by_cases empty : value = ""
  · subst empty
    simp
  · rw [if_neg (by simpa using empty), mem_problemUnless]
    simp [Text.isIdentifierTail, empty]

theorem mem_suffixProblems {value : String} {p : ConfigProblem} :
    p ∈ suffixProblems value ↔
      value = "" ∧ p = .emptySuffix ∨
      (∃ c ∈ value.toList, c = '/' ∨ c = '\\') ∧ p = .suffixSeparator value := by
  unfold suffixProblems
  by_cases empty : value = ""
  · subst empty
    simp
  · rw [if_neg (by simpa using empty), mem_problemUnless]
    simp [empty, or_iff_not_imp_left]

end Config

namespace ConfigField

/-- The problems of a value are the reasons to reject it. -/
theorem mem_problems_iff {field : ConfigField} {value : String} {p : ConfigProblem} :
    p ∈ field.problems value ↔ field.Rejects value p := by
  constructor
  · intro member
    cases field with
    | implementationSuffix =>
      rcases Config.mem_implementationSuffixProblems.mp member with
        ⟨rfl, rfl⟩ | ⟨⟨c, isPart, stray⟩, rfl⟩
      · exact .emptyImplementationSuffix
      · exact .implementationSuffix isPart stray
    | invocationMethod =>
      obtain ⟨noName, rfl⟩ := Config.mem_problemUnless.mp member
      exact .invocationMethod noName
    | requestType =>
      obtain ⟨noPath, rfl⟩ := Config.mem_problemUnless.mp member
      exact .requestType noPath
    | suffix =>
      rcases Config.mem_suffixProblems.mp member with ⟨rfl, rfl⟩ | ⟨⟨c, isPart, separates⟩, rfl⟩
      · exact .emptySuffix
      · exact .suffixSeparator isPart separates
    | runtimeCrate =>
      obtain ⟨noPath, rfl⟩ := Config.mem_problemUnless.mp member
      exact .runtimeCrate noPath
  · intro rejects
    cases rejects with
    | emptyImplementationSuffix =>
      exact Config.mem_implementationSuffixProblems.mpr (.inl ⟨rfl, rfl⟩)
    | implementationSuffix isPart stray =>
      exact Config.mem_implementationSuffixProblems.mpr (.inr ⟨⟨_, isPart, stray⟩, rfl⟩)
    | invocationMethod noName => exact Config.mem_problemUnless.mpr ⟨noName, rfl⟩
    | requestType noPath => exact Config.mem_problemUnless.mpr ⟨noPath, rfl⟩
    | emptySuffix => exact Config.mem_suffixProblems.mpr (.inl ⟨rfl, rfl⟩)
    | suffixSeparator isPart separates =>
      exact Config.mem_suffixProblems.mpr (.inr ⟨⟨_, isPart, separates⟩, rfl⟩)
    | runtimeCrate noPath => exact Config.mem_problemUnless.mpr ⟨noPath, rfl⟩

theorem map_field_problemUnless (holds : Bool) {problem : ConfigProblem} {field : ConfigField}
    (about : problem.field = field) :
    ((Config.problemUnless holds problem).map ConfigProblem.field).Sublist [field] := by
  cases holds <;> simp [Config.problemUnless, about]

/-- A field has one problem at most. -/
theorem map_field_problems (field : ConfigField) (value : String) :
    ((field.problems value).map ConfigProblem.field).Sublist [field] := by
  cases field with
  | implementationSuffix =>
    change ((Config.implementationSuffixProblems value).map _).Sublist _
    unfold Config.implementationSuffixProblems
    split
    · exact List.Sublist.refl _
    · exact map_field_problemUnless _ rfl
  | suffix =>
    change ((Config.suffixProblems value).map _).Sublist _
    unfold Config.suffixProblems
    split
    · exact List.Sublist.refl _
    · exact map_field_problemUnless _ rfl
  | invocationMethod | requestType | runtimeCrate => exact map_field_problemUnless _ rfl

end ConfigField

/-- Some problems are all that is wrong with a configuration, one at most for each field and in the
order of the fields. -/
structure Config.Faults (c : Config) (problems : List ConfigProblem) : Prop where
  complete : ∀ p, p ∈ problems ↔ ∃ field : ConfigField, field.Rejects (c.value field) p
  ordered : (problems.map ConfigProblem.field).Sublist ConfigField.all

theorem Config.faults_problems (c : Config) : c.Faults c.problems where
  complete p := by
    have every : ∀ field : ConfigField, field ∈ ConfigField.all := fun field => by
      cases field <;> decide
    simp only [problems_eq, List.mem_flatMap, ConfigField.mem_problems_iff, every, true_and]
  ordered := by
    rw [problems_eq, List.map_flatMap]
    have each := List.Sublist.flatMap_right ConfigField.all fun field _ =>
      field.map_field_problems (c.value field)
    rwa [List.flatMap_singleton'] at each

theorem Config.problems_eq_nil_iff {c : Config} :
    c.problems = [] ↔ ∀ (field : ConfigField) p, ¬field.Rejects (c.value field) p := by
  rw [List.eq_nil_iff_forall_not_mem]
  simp only [c.faults_problems.complete, not_exists]
  exact forall_comm

/-- There is one such list only. -/
theorem Config.Faults.eq {c : Config} {problems : List ConfigProblem} (h : c.Faults problems) :
    problems = c.problems := by
  have inOrder : ConfigField.all.Pairwise fun a b => a.ctorIdx < b.ctorIdx := by decide
  have ascending : ∀ {list}, c.Faults list →
      list.Pairwise fun p q => p.field.ctorIdx < q.field.ctorIdx := fun faults => by
    have ordered := inOrder.sublist faults.ordered
    rwa [List.pairwise_map] at ordered
  have distinct : ∀ {list}, c.Faults list → list.Nodup := fun faults => by
    refine (ascending faults).imp ?_
    rintro p _ less rfl
    exact Nat.lt_irrefl _ less
  have same : problems.Perm c.problems :=
    (List.perm_ext_iff_of_nodup (distinct h) (distinct c.faults_problems)).mpr fun p =>
      (h.complete p).trans (c.faults_problems.complete p).symm
  exact same.eq_of_pairwise
    (fun _ _ _ _ less greater => absurd (Nat.lt_trans less greater) (Nat.lt_irrefl _))
    (ascending h) (ascending c.faults_problems)

/-! ## Files -/

section Reader

variable (parse? : String → Option ConfigLayer) (files : Files.View)

/-- What a path adds to the layers: nothing if nothing is there, and otherwise the layer that its
text describes. -/
inductive LayerAt (path : String) : Option ConfigLayer → Prop
  | absent {fault : Files.Fault} (there : files path = .absent fault) : LayerAt path none
  | present {text : String} {layer : ConfigLayer} (there : files path = .file text.toUTF8)
      (parsed : parse? text = some layer) : LayerAt path (some layer)

/-- Why there is no layer in what is at a path. -/
inductive LayerFault (path : String) : ConfigError → Prop
  | directory (there : files path = .directory) :
      LayerFault path (.unreadable path .isADirectory)
  | unreadable {fault : Files.Fault} (there : files path = .unreadable fault) :
      LayerFault path (.unreadable path fault)
  | notUtf8 {content : ByteArray} (there : files path = .file content)
      (noText : ∀ text : String, text.toUTF8 ≠ content) :
      LayerFault path (.unreadable path .notUtf8)
  | malformed {text : String} (there : files path = .file text.toUTF8)
      (unparsed : parse? text = none) : LayerFault path (.malformed path)

/-- The layers that some paths add, in order. -/
def LayersAt (paths : List String) (layers : List ConfigLayer) : Prop :=
  ∃ found, List.Forall₂ (LayerAt parse? files) paths found ∧ found.reduceOption = layers

/-- Why the files at some paths are refused: the first of them without a layer, or all that is wrong
with what the layers make up. -/
inductive LoadFault (paths : List String) : ConfigError → Prop
  | file {before after : List String} {path : String} {layers : List ConfigLayer} {e : ConfigError}
      (split : paths = before ++ path :: after) (readable : LayersAt parse? files before layers)
      (fault : LayerFault parse? files path e) : LoadFault paths e
  | settled {layers : List ConfigLayer} {c : Config} {problems : List ConfigProblem}
      (readable : LayersAt parse? files paths layers) (settled : c.SettledBy layers)
      (faults : c.Faults problems) (some : problems ≠ []) :
      LoadFault paths (.invalid problems)

end Reader

section Files

variable {parse? : String → Option ConfigLayer} {files : Files.View} {path : String}
  {found : Option ConfigLayer} {e : ConfigError}

/-- A path adds something to the layers, or it is refused for what is at it. -/
theorem layerAt_or_fault (parse? : String → Option ConfigLayer) (files : Files.View)
    (path : String) :
    (∃ found, LayerAt parse? files path found) ∨ ∃ e, LayerFault parse? files path e := by
  cases there : files path with
  | absent fault => exact .inl ⟨none, .absent there⟩
  | unreadable fault => exact .inr ⟨_, .unreadable there⟩
  | directory => exact .inr ⟨_, .directory there⟩
  | file content =>
    by_cases decoded : ∃ text : String, text.toUTF8 = content
    · obtain ⟨text, rfl⟩ := decoded
      cases parsed : parse? text with
      | none => exact .inr ⟨_, .malformed there parsed⟩
      | some layer => exact .inl ⟨_, .present there parsed⟩
    · exact .inr ⟨_, .notUtf8 there (not_exists.mp decoded)⟩

namespace ConfigLayer

theorem read?_file {content : ByteArray} (there : files path = .file content) :
    read? parse? files path =
      match (Files.Entry.file content).text with
      | .error fault => .error (.unreadable path fault)
      | .ok text =>
        match parse? text with
        | some layer => .ok (some layer)
        | none => .error (.malformed path) := by
  unfold read?
  rw [there]
  rfl

theorem read?_of_layerAt (h : LayerAt parse? files path found) :
    read? parse? files path = .ok found := by
  cases h with
  | absent there =>
    unfold read?
    rw [there]
    rfl
  | present there parsed =>
    rw [read?_file there, Files.Entry.text_toUTF8]
    simp only [parsed]

theorem read?_of_layerFault (h : LayerFault parse? files path e) :
    read? parse? files path = .error e := by
  cases h with
  | directory there | unreadable there =>
    unfold read?
    rw [there]
    rfl
  | notUtf8 there noText => rw [read?_file there, Files.Entry.text_of_no_text noText]
  | malformed there unparsed =>
    rw [read?_file there, Files.Entry.text_toUTF8]
    simp only [unparsed]

end ConfigLayer

section Paths

variable {paths before after : List String} {layers : List ConfigLayer}

/-- Every path adds to the layers, or there is a first one that is refused. -/
theorem layersAt_or_fault (parse? : String → Option ConfigLayer) (files : Files.View)
    (paths : List String) :
    (∃ layers, LayersAt parse? files paths layers) ∨
      ∃ before path after layers e, paths = before ++ path :: after ∧
        LayersAt parse? files before layers ∧ LayerFault parse? files path e := by
  induction paths with
  | nil => exact .inl ⟨[], [], .nil, rfl⟩
  | cons path rest ih =>
    rcases layerAt_or_fault parse? files path with ⟨found, here⟩ | ⟨e, fault⟩
    · rcases ih with
        ⟨_, others, read, rfl⟩ | ⟨before, other, after, _, e, rfl, ⟨others, read, rfl⟩, fault⟩
      · exact .inl ⟨_, found :: others, .cons here read, rfl⟩
      · exact .inr ⟨path :: before, other, after, _, e, rfl,
          ⟨found :: others, .cons here read, rfl⟩, fault⟩
    · exact .inr ⟨[], path, rest, [], e, rfl, ⟨[], .nil, rfl⟩, fault⟩

namespace Config

/-- Layers that were read are merged before any other path is looked at. -/
theorem applyLayers_append (read : LayersAt parse? files before layers) (after : List String)
    (c : Config) :
    applyLayers parse? files (before ++ after) c =
      applyLayers parse? files after (layers.foldl merge c) := by
  obtain ⟨found, read, rfl⟩ := read
  induction read generalizing c with
  | nil => rfl
  | @cons path found _ _ here _ ih =>
    rw [List.cons_append, applyLayers, ConfigLayer.read?_of_layerAt here]
    cases found with
    | none => exact ih c
    | some layer => exact ih (c.merge layer)

theorem load_of_layersAt (read : LayersAt parse? files paths layers) :
    load files paths parse? = validated (layers.foldl merge {}) := by
  have applied := applyLayers_append read [] {}
  rw [List.append_nil] at applied
  unfold load
  rw [applied]
  rfl

theorem load_of_fault (read : LayersAt parse? files before layers)
    (fault : LayerFault parse? files path e) (after : List String) :
    load files (before ++ path :: after) parse? = .error e := by
  unfold load
  rw [applyLayers_append read, applyLayers, ConfigLayer.read?_of_layerFault fault]
  rfl

theorem validated_eq_ok_iff {c c' : Config} : c.validated = .ok c' ↔ c.problems = [] ∧ c = c' := by
  unfold validated
  split
  · next none => simp [List.isEmpty_iff.mp none]
  · next some => simp [mt List.isEmpty_iff.mpr some]

theorem validated_eq_error_iff {c : Config} :
    c.validated = .error e ↔ c.problems ≠ [] ∧ e = .invalid c.problems := by
  unfold validated
  split
  · next none => simp [List.isEmpty_iff.mp none]
  · next some => simp [mt List.isEmpty_iff.mpr some, eq_comm]

end Config

end Paths

end Files

/-- Loading the files at some paths gives what their layers make of each field, if every file there
has a layer in it and no field rejects what it is in the end. What was said before the end does not
matter. Anything else is refused, for the first file without a layer or with all that is wrong. All
of this holds for every reader of layers. -/
theorem load_is_layered (parse? : String → Option ConfigLayer) (files : Files.View)
    (paths : List String) :
    (∀ c, Config.load files paths parse? = .ok c ↔
      ∃ layers, LayersAt parse? files paths layers ∧ c.SettledBy layers ∧
        ∀ (field : ConfigField) problem, ¬field.Rejects (c.value field) problem) ∧
    ∀ e, Config.load files paths parse? = .error e ↔ LoadFault parse? files paths e := by
  refine ⟨fun c => ⟨fun loaded => ?_, ?_⟩, fun e => ⟨fun refused => ?_, ?_⟩⟩
  · rcases layersAt_or_fault parse? files paths with
      ⟨layers, read⟩ | ⟨before, path, after, layers, e, rfl, read, fault⟩
    · rw [Config.load_of_layersAt read, Config.validated_eq_ok_iff] at loaded
      obtain ⟨valid, merged⟩ := loaded
      subst merged
      exact ⟨layers, read, Config.settledBy_iff.mpr rfl, Config.problems_eq_nil_iff.mp valid⟩
    · rw [Config.load_of_fault read fault] at loaded
      cases loaded
  · rintro ⟨layers, read, settled, accepted⟩
    rw [Config.load_of_layersAt read, Config.settledBy_iff.mp settled, Config.validated_eq_ok_iff]
    exact ⟨Config.problems_eq_nil_iff.mpr accepted, rfl⟩
  · rcases layersAt_or_fault parse? files paths with
      ⟨layers, read⟩ | ⟨before, path, after, layers, e', rfl, read, fault⟩
    · rw [Config.load_of_layersAt read, Config.validated_eq_error_iff] at refused
      obtain ⟨some, rfl⟩ := refused
      exact .settled read (Config.settledBy_iff.mpr rfl) (Config.faults_problems _) some
    · rw [Config.load_of_fault read fault] at refused
      cases refused
      exact .file rfl read fault
  · rintro (⟨rfl, read, fault⟩ | ⟨read, settled, faults, some⟩)
    · exact Config.load_of_fault read fault _
    · obtain rfl := faults.eq
      rw [Config.load_of_layersAt read, Config.settledBy_iff.mp settled,
        Config.validated_eq_error_iff]
      exact ⟨some, rfl⟩

/-- A suffix that would be refused is set again by a later file, which says nothing of the method.
Its array goes on behind the last field of the section. -/
example :
    let files : Files.View := fun path =>
      if path = "user.toml" then
        .file "[conventions]\ninvocation_method = \"call\"\n[output]\nsuffix = \"\"\n".toUTF8
      else if path = "app.toml" then .file "output = [\"_stack\", \"mw\", [3, true]]".toUTF8
      else .absent .notFound
    Config.load files ["user.toml", "none.toml", "app.toml"] = .ok {
      conventions := { invocationMethod := "call" }
      output := { suffix := "_stack", runtimeCrate := "mw" } } := by
  decide +kernel

end MiddlewareStack
