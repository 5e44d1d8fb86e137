import MiddlewareStack.CommandLine
import MiddlewareStack.Proofs.ContractImpls
import MiddlewareStack.Proofs.SiblingPaths

/-!
# What a run leaves in the files

A run that fails leaves every file as it was. One that succeeds writes a single file, which stands
in the directory of the file that was read and is not that file. Paths are followed through
directories only, so that a file that is written changes where no path leads.
-/

namespace MiddlewareStack

open Files

namespace Files.Tree

variable {t after : Tree}

/-- The content of the file at a path. -/
def file? (t : Tree) (path : String) : Option ByteArray :=
  match t.view path with
  | .file content => some content
  | _ => none

theorem file?_eq_some {path : String} {content : ByteArray} :
    t.file? path = some content ↔
      ∃ place, t.place path = .ok place ∧ t.node? place = some (.file content) := by
  unfold file? view
  cases t.place path with
  | error fault => simp
  | ok place =>
    simp only [Except.ok.injEq, exists_eq_left']
    cases t.node? place with
    | none => simp
    | some node => cases node <;> simp

/-! ## Following paths -/

section Follow

variable {start place : Place} {steps : List (List Char)}

theorem follow_append (t : Tree) (start : Place) (steps others : List (List Char)) :
    t.follow start (steps ++ others) =
      t.follow start steps >>= fun place => t.follow place others := by
  induction steps generalizing start with
  | nil => rfl
  | cons step rest ih =>
    simp only [List.cons_append, follow]
    split
    · rfl
    · rfl
    · split
      · exact ih start
      · split
        · exact ih _
        · split
          · rfl
          · exact ih _

theorem follow_append_eq_ok {others : List (List Char)} :
    t.follow start (steps ++ others) = .ok place ↔
      ∃ middle, t.follow start steps = .ok middle ∧ t.follow middle others = .ok place := by
  rw [follow_append]
  cases t.follow start steps <;> simp [bind, Except.bind]

/-- Steps that lead nowhere are followed in a directory, and stay there. -/
theorem follow_empty (empty : ∀ step ∈ steps, isEmptyStep step)
    (h : t.follow start steps = .ok place) : place = start := by
  induction steps with
  | nil => cases h; rfl
  | cons step rest ih =>
    obtain ⟨first, others⟩ := List.forall_mem_cons.mp empty
    simp only [follow, first, if_true] at h
    split at h
    · cases h
    · cases h
    · exact ih others h

theorem follow_trimSteps {before : List (List Char)}
    (h : t.follow start before.reverse = .ok place) :
    t.follow start (trimSteps before).reverse = .ok place := by
  fun_induction trimSteps before generalizing place with
  | case1 => exact h
  | case2 first => exact h
  | case3 last rest _ leads ih =>
    rw [List.reverse_cons, follow_append_eq_ok] at h
    obtain ⟨middle, inside, last⟩ := h
    obtain rfl := follow_empty (by simpa using leads) last
    exact ih inside
  | case4 last rest _ _ => exact h

theorem follow_name {name : String} (named : IsName name)
    (h : t.follow start [name.toList] = .ok place) : place = start ++ [name] := by
  have leads := named.leads
  have down := named.down
  simp only [follow, leads, String.ofList_toList] at h
  split at h
  · cases h
  · cases h
  · simp only [Bool.false_eq_true, if_false, beq_iff_eq, down] at h
    split at h
    · cases h
    · exact (Except.ok.inj h).symm

end Follow

theorem place_eq_ok {path : String} {place : Place} (h : t.place path = .ok place) :
    t.follow (if isAbsolute path then [] else t.workingPlace) (components path.toList) =
      .ok place := by
  unfold Tree.place at h
  split at h
  · cases h
  · split at h
    · cases h
    · split at h
      · cases h
      · exact h

/-- A path that ends with a name leads to that name in some place, and a sibling of it to the
sibling there. -/
theorem place_sibling {path dir name sibling : String} (found : splitName? path = some (dir, name))
    (h : IsName sibling) {first second : Place} (leads : t.place path = .ok first)
    (leadsToo : t.place (join dir sibling) = .ok second) :
    ∃ above, first = above ++ [name] ∧ second = above ++ [sibling] := by
  have absolute := isAbsolute_join found h
  obtain ⟨named, before, trailing, rfl, cut, whole, empty⟩ := components_of_splitName? found
  have there := place_eq_ok leads
  have thereToo := place_eq_ok leadsToo
  rw [cut, List.append_cons, follow_append_eq_ok] at there
  obtain ⟨here, there, behind⟩ := there
  rw [follow_append_eq_ok] at there
  obtain ⟨above, there, last⟩ := there
  rw [absolute, components_join h whole, follow_append_eq_ok] at thereToo
  obtain ⟨above', thereToo, lastToo⟩ := thereToo
  -- the steps before the sibling are those before the name, but for some that lead nowhere
  cases (follow_trimSteps there).symm.trans thereToo
  refine ⟨above, ?_, follow_name h lastToo⟩
  rw [follow_empty empty behind, follow_name named last]

/-! ## Writing -/

/-- In `after`, a file stands at a place, and nothing else differs from `t`. -/
structure Writes (t after : Tree) (target : Place) (content : ByteArray) : Prop where
  workingPlace : after.workingPlace = t.workingPlace
  written : after.node? target = some (.file content)
  others : ∀ place, keyOf place ≠ keyOf target → after.node? place = t.node? place

theorem write_eq_ok {path : String} {content : ByteArray} (h : t.write path content = .ok after) :
    ∃ target, t.place path = .ok target ∧ t.node? target ≠ some .directory ∧
      after = { t with nodes := t.nodes.insert (keyOf target) (.file content) } := by
  unfold write at h
  cases leads : t.place path with
  | error fault => simp [leads, bind, Except.bind] at h
  | ok target =>
    simp only [leads, bind, Except.bind] at h
    split at h
    · cases h
    · next other => exact ⟨target, rfl, other, (Except.ok.inj h).symm⟩

theorem writes_of_insert {target : Place} (content : ByteArray) (inside : target ≠ []) :
    t.Writes { t with nodes := t.nodes.insert (keyOf target) (.file content) } target content where
  workingPlace := rfl
  written := by
    simp [node?, inside, KeyedMap.find?_insert]
  others place differs := by
    unfold node?
    rw [KeyedMap.find?_insert, if_neg differs]

/-- The keys of what stands in one directory differ in their ends. -/
theorem keyOf_concat (above : Place) : ∃ front : String, front ≠ "" ∧
    ∀ name, keyOf (above ++ [name]) = front ++ name := by
  by_cases root : above = []
  · exact ⟨"/", by decide, fun name => by simp [keyOf, root]⟩
  · refine ⟨keyOf above ++ "/", by simp, fun name => ?_⟩
    rw [keyOf, keyOf, String.intercalate_append_of_ne_nil root (List.cons_ne_nil name [])]
    simp [String.append_assoc]

theorem keyOf_concat_inj {above : Place} {name other : String} :
    keyOf (above ++ [name]) = keyOf (above ++ [other]) ↔ name = other := by
  obtain ⟨front, _, keys⟩ := keyOf_concat above
  rw [keys, keys, String.append_right_inj]

/-- Only the root has the key of the root. -/
theorem keyOf_concat_ne_root (above : Place) {name : String} (some : name ≠ "") :
    keyOf (above ++ [name]) ≠ keyOf [] := by
  obtain ⟨front, someFront, keys⟩ := keyOf_concat above
  have longFront : 0 < front.length := by simpa [Nat.pos_iff_ne_zero] using someFront
  have longName : 0 < name.length := by simpa [Nat.pos_iff_ne_zero] using some
  have root : keyOf [] = "/" := by decide
  intro same
  rw [keys, root] at same
  have lengths := congrArg String.length same
  rw [String.length_append] at lengths
  have one : "/".length = 1 := by decide
  omega

/-- The paths lead to one place, where something may be or not. -/
def SameFile (t : Tree) (path other : String) : Prop :=
  ∃ place place', t.place path = .ok place ∧ t.place other = .ok place' ∧
    keyOf place = keyOf place'

/-- The file at `path` is `content` in `after`, and every other file is what it was in `t`. -/
structure OnlyChanges (t after : Tree) (path : String) (content : ByteArray) : Prop where
  nodes : ∃ target, t.place path = .ok target ∧ t.Writes after target content
  written : after.file? path = some content
  kept : ∀ other, after.file? other ≠ t.file? other → t.SameFile path other

theorem OnlyChanges.file?_eq {path other : String} {content : ByteArray}
    (h : t.OnlyChanges after path content) (elsewhere : ¬t.SameFile path other) :
    after.file? other = t.file? other := by
  by_contra differs
  exact elsewhere (h.kept other differs)

/-- What is written is neither the root nor was it a directory, so that no path led through it. -/
structure WritesFile (t after : Tree) (target : Place) (content : ByteArray) : Prop
    extends t.Writes after target content where
  below : keyOf target ≠ keyOf []
  notDirectory : t.node? target ≠ some .directory

namespace WritesFile

variable {target : Place} {content : ByteArray} (h : t.WritesFile after target content)

include h

theorem node?_of_same {place : Place} (same : keyOf place = keyOf target) :
    t.node? place = t.node? target ∧ after.node? place = after.node? target := by
  have inside : ∀ {place : Place}, keyOf place = keyOf target → place.isEmpty = false := by
    intro place same
    by_contra root
    have root : place = [] := by simpa using root
    exact h.below (root ▸ same.symm)
  simp [node?, inside same, inside rfl, same]

/-- Writing leaves all paths as they were, since what is written is not followed through. -/
theorem follow_iff {start place : Place} {steps : List (List Char)} :
    after.follow start steps = .ok place ↔ t.follow start steps = .ok place := by
  induction steps generalizing start with
  | nil => rfl
  | cons step rest ih =>
    by_cases there : keyOf start = keyOf target
    -- neither before nor after the write is there a directory in which the step could be followed
    · obtain ⟨before, behind⟩ := h.node?_of_same there
      have stuck : ∀ {tree : Tree}, tree.node? start ≠ some .directory →
          tree.follow start (step :: rest) ≠ .ok place := by
        intro tree notDirectory
        rw [follow]
        split <;> simp_all
      exact iff_of_false (stuck (by simp [behind, h.written]))
        (stuck (before ▸ h.notDirectory))
    · simp only [follow, h.others start there]
      split
      · rfl
      · rfl
      · split
        · exact ih
        · split
          · exact ih
          · split
            · rfl
            · exact ih

theorem place_iff {path : String} {place : Place} :
    after.place path = .ok place ↔ t.place path = .ok place := by
  unfold Tree.place
  rw [h.workingPlace]
  split
  · rfl
  · split
    · rfl
    · split
      · rfl
      · exact h.follow_iff

theorem file?_kept {path : String}
    (elsewhere : ∀ place, t.place path = .ok place → keyOf place ≠ keyOf target) :
    after.file? path = t.file? path := by
  refine Option.ext fun content => ?_
  rw [file?_eq_some, file?_eq_some]
  refine exists_congr fun place => ?_
  rw [h.place_iff]
  refine and_congr_right fun leads => ?_
  rw [h.others place (elsewhere place leads)]

/-- Only paths to the place that is written find another file there. -/
theorem onlyChanges {path : String} (leads : t.place path = .ok target) :
    t.OnlyChanges after path content where
  nodes := ⟨target, leads, h.toWrites⟩
  written := file?_eq_some.mpr ⟨target, h.place_iff.mpr leads, h.written⟩
  kept other differs := by
    by_contra elsewhere
    refine differs (h.file?_kept fun place leadsToo same => ?_)
    exact elsewhere ⟨target, place, leads, leadsToo, same.symm⟩

end WritesFile

/-- `other` stands in the directory of `path`, under another name. -/
def NextTo (t : Tree) (path other : String) : Prop :=
  ∃ dir name sibling above,
    splitName? path = some (dir, name) ∧ splitName? other = some (dir, sibling) ∧ name ≠ sibling ∧
    t.place path = .ok (above ++ [name]) ∧ t.place other = .ok (above ++ [sibling])

theorem NextTo.ne {path other : String} (h : t.NextTo path other) : other ≠ path := by
  rintro rfl
  obtain ⟨dir, name, sibling, above, found, foundToo, differs, _⟩ := h
  cases found.symm.trans foundToo
  exact differs rfl

theorem NextTo.not_sameFile {path other : String} (h : t.NextTo path other) :
    ¬t.SameFile other path := by
  rintro ⟨place, place', leads, leadsToo, same⟩
  obtain ⟨_, name, sibling, above, _, _, differs, there, thereToo⟩ := h
  cases leads.symm.trans thereToo
  cases leadsToo.symm.trans there
  exact differs (keyOf_concat_inj.mp same).symm

end Files.Tree

/-- An accepted suffix makes another name of a stem, and stays in one directory. -/
theorem Config.suffix_of_problems {c : Config} (accepted : c.problems = []) :
    c.output.suffix ≠ "" ∧ '/' ∉ c.output.suffix.toList := by
  have none : suffixProblems c.output.suffix = [] := by
    unfold problems at accepted
    simp only [List.append_eq_nil_iff] at accepted
    exact accepted.1.2
  unfold suffixProblems at none
  split at none
  · cases none
  · next some =>
    refine ⟨by simpa using some, fun slash => ?_⟩
    have refused : (c.output.suffix.toList.all fun c => c ≠ '/' && c ≠ '\\') = false := by
      rw [List.all_eq_false]
      exact ⟨'/', slash, by decide⟩
    rw [refused] at none
    cases none

namespace GenerateOptions

open Files.Tree

variable {o : GenerateOptions} {c : Config} {t after : Files.Tree} {path text : String}

theorem table_reads {files : Files.View} {table : Table} {input : String}
    (h : o.table files = .ok (table, input)) :
    o.input? = some input ∧ ∃ content, files input = .file content := by
  have read : ∀ {path text}, (files path).text = .ok text →
      ∃ content, files path = .file content := by
    intro path text read
    cases there : files path with
    | file content => exact ⟨content, rfl⟩
    | directory => simp [there, Files.Entry.text] at read
    | unreadable fault => simp [there, Files.Entry.text] at read
    | absent fault => simp [there, Files.Entry.text] at read
  unfold GenerateOptions.table at h
  unfold input?
  split at h
  · next symbols given =>
    dsimp only at h
    split at h
    · cases h
    · next text found =>
      split at h
      · cases h
        exact ⟨by simp [given], read found⟩
      · cases h
  · next source absent given =>
    dsimp only at h
    split at h
    · cases h
    · next text found =>
      split at h
      · cases h
        exact ⟨by simp [absent, given], read found⟩
      · cases h
  · cases h

theorem output_reads {files : Files.View} (h : o.output files c = .ok (path, text)) :
    ∃ input, o.input? = some input ∧ (∃ content, files input = .file content) ∧
      o.outputPath c input = .ok path := by
  simp only [output, generate, Aggregate.bind_eq_ok] at h
  obtain ⟨generated, ⟨⟨table, input⟩, read, compiled⟩, path', placed, same⟩ := h
  cases same
  obtain ⟨reads, file⟩ := table_reads read
  dsimp only at compiled
  split at compiled
  · cases compiled
  · obtain ⟨rendered, _, same⟩ := Aggregate.bind_eq_ok.mp compiled
    cases same
    exact ⟨input, reads, file, placed⟩

theorem fileEnding_spec (emit : Emit) :
    emit.fileEnding ≠ "" ∧ '/' ∉ emit.fileEnding.toList := by
  cases emit <;> decide

/-- A run ends where its output cannot be made, where it cannot be written, or with its path. -/
theorem perform_eq : o.perform c t =
    match o.output t.view c with
    | .error e => .error e t
    | .ok (path, text) =>
      match t.write path text.toUTF8 with
      | .error fault => .error (.unwritable path fault) t
      | .ok after => .ok path after := by
  change (ofExcept (o.output t.view c) >>= fun out => do
    writeText out.1 out.2
    return out.1 : EStateM GenerateError Files.Tree String) t = _
  cases o.output t.view c with
  | error e => rfl
  | ok out =>
    change (writeText out.1 out.2 >>= fun _ => pure out.1 :
      EStateM GenerateError Files.Tree String) t = _
    simp only [bind, EStateM.bind, writeText]
    cases t.write out.1 out.2.toUTF8 <;> rfl

theorem unchanged_of_failed {e : GenerateError} (failed : o.perform c t = .error e after) :
    after = t := by
  rw [perform_eq] at failed
  split at failed
  · cases failed
    rfl
  · split at failed <;> cases failed
    rfl

theorem perform_eq_ok (done : o.perform c t = .ok path after) :
    ∃ text, o.output t.view c = .ok (path, text) ∧ t.write path text.toUTF8 = .ok after := by
  rw [perform_eq] at done
  split at done
  · cases done
  · next made =>
    split at done <;> cases done
    next wrote => exact ⟨_, made, wrote⟩

/-- Where the output of an input goes: next to it, and never to the input itself. -/
theorem nextTo_outputPath (accepted : c.problems = []) {input : String}
    (placed : o.outputPath c input = .ok path) {source target : Files.Place}
    (leads : t.place input = .ok source) (leadsToo : t.place path = .ok target) :
    t.NextTo input path ∧ Files.Tree.keyOf target ≠ Files.Tree.keyOf [] := by
  unfold outputPath at placed
  split at placed
  · cases placed
  · next dir name found =>
    cases placed
    obtain ⟨some, whole⟩ := Config.suffix_of_problems accepted
    obtain ⟨someEnding, wholeEnding⟩ := fileEnding_spec o.emit
    obtain ⟨named, _⟩ := Files.components_of_splitName? found
    obtain ⟨siblingNamed, differs⟩ := named.behind_stem some whole someEnding wholeEnding
    obtain ⟨above, rfl, rfl⟩ := place_sibling found siblingNamed leads leadsToo
    refine ⟨⟨dir, name, _, above, found, Files.splitName?_join found siblingNamed, differs.symm,
      leads, leadsToo⟩, keyOf_concat_ne_root above ?_⟩
    rintro none
    simpa [none, Files.isEmptyStep] using siblingNamed.leads

/-- A run with an accepted configuration that fails leaves the tree as it was. One that succeeds
changes a single file, whose path is its result. This file stands in the directory of the input that
was read, and is not the input. -/
theorem perform_all_or_nothing (o : GenerateOptions) (c : Config) (accepted : c.problems = [])
    (t : Files.Tree) :
    (∀ e after, o.perform c t = .error e after → after = t) ∧
    ∀ path after, o.perform c t = .ok path after → ∃ input text,
      o.output t.view c = .ok (path, text) ∧
      o.input? = some input ∧ (t.file? input).isSome ∧
      path ≠ input ∧ t.NextTo input path ∧
      t.OnlyChanges after path text.toUTF8 ∧ after.file? input = t.file? input := by
  refine ⟨fun e after => unchanged_of_failed, fun path after done => ?_⟩
  obtain ⟨text, made, wrote⟩ := perform_eq_ok done
  obtain ⟨input, isInput, ⟨content, file⟩, placed⟩ := output_reads made
  have read : t.file? input = some content := by simp [file?, file]
  obtain ⟨source, leads, _⟩ := file?_eq_some.mp read
  obtain ⟨target, leadsToo, notDirectory, changed⟩ := write_eq_ok wrote
  obtain ⟨nextTo, below⟩ := nextTo_outputPath accepted placed leads leadsToo
  have inside : target ≠ [] := fun root => below (congrArg Files.Tree.keyOf root)
  have writes : t.Writes after target text.toUTF8 := changed ▸ writes_of_insert text.toUTF8 inside
  have writesFile : t.WritesFile after target text.toUTF8 := ⟨writes, below, notDirectory⟩
  have onlyChanges := writesFile.onlyChanges leadsToo
  exact ⟨input, text, made, isInput, by simp [read], nextTo.ne, nextTo, onlyChanges,
    onlyChanges.file?_eq nextTo.not_sameFile⟩

/-- A directory with a source file that has two dots in its name. -/
def appFiles : Files.Tree :=
  { nodes := .ofList [("/src", .directory), ("/src/app.v1.rs", .file (
      "trait Root: Auth \x7b\x7d trait Auth \x7b\x7d struct AuthMiddleware; " ++
      "impl AuthMiddleware \x7b fn run(&self, req: &http::Request) \x7b\x7d \x7d").toUTF8)] }

def appOptions : GenerateOptions :=
  { dir := "src", source := some "./app.v1.rs", root := "Root" }

theorem app_writes_one_file :
    ∃ after text, appOptions.perform {} appFiles = .ok "src/app.v1_middleware.rs" after ∧
      appFiles.NextTo "src/./app.v1.rs" "src/app.v1_middleware.rs" ∧
      appFiles.OnlyChanges after "src/app.v1_middleware.rs" text ∧
      after.file? "src/./app.v1.rs" = appFiles.file? "src/./app.v1.rs" := by
  have evaluated : (match appOptions.perform {} appFiles with
      | .error _ _ => none
      | .ok path _ => some path) = some "src/app.v1_middleware.rs" := by decide +kernel
  cases done : appOptions.perform {} appFiles with
  | error e after => simp [done] at evaluated
  | ok path after =>
    simp only [done, Option.some.injEq] at evaluated
    subst evaluated
    have accepted : ({} : Config).problems = [] := by decide +kernel
    obtain ⟨input, text, _, isInput, _, _, nextTo, onlyChanges, kept⟩ :=
      (perform_all_or_nothing appOptions {} accepted appFiles).2 _ after done
    obtain rfl : "src/./app.v1.rs" = input := by
      simpa [input?, appOptions, Files.join, Files.isAbsolute] using isInput
    exact ⟨after, _, rfl, nextTo, onlyChanges, kept⟩

end GenerateOptions

namespace CommandLine

/-- A run that prints nothing performs the generation, once its options and its configuration are
read. -/
theorem run_eq_perform {env : Environment} {texts : List String} {o : GenerateOptions} {c : Config}
    {t : Files.Tree} (read : readOptions env texts = .ok (o, false))
    (loaded : Config.load t.view (configPaths env o) = .ok c) :
    run env t texts =
      match o.perform c t with
      | .error e after => (.ofError e.messages, after)
      | .ok path after => (endingAfter path (.ok ()), after) := by
  rw [GenerateOptions.perform_eq]
  simp only [run, plan, read, planWith, loaded, Bool.false_eq_true, if_false]
  cases o.output t.view c with
  | error e => rfl
  | ok out =>
    dsimp only
    cases t.write out.1 out.2.toUTF8 <;> rfl

end CommandLine

end MiddlewareStack
