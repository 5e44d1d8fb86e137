import Mathlib.Data.List.Basic
import MiddlewareStack.Files.Path

/-!
# Names next to others

The output of a run stands in the directory of its input. Components that make up a path are found
again where it is cut; what is put behind the directory of a name is found in that directory, by
whatever name it has. A name that goes on behind the stem of another one is not that one.
-/

namespace MiddlewareStack.Files

/-! ## Components -/

theorem components_eq_splitOn (text : List Char) : components text = text.splitOn '/' := by
  fun_induction components text with
  | case1 => rfl
  | case2 rest ih => rw [ih, List.splitOn_cons_eq_if_modifyHead]; simp
  | case3 c rest notSlash none ih => exact absurd (ih ▸ none) (List.splitOn_ne_nil _ _)
  | case4 c rest notSlash first others some ih =>
    have differs : ¬c = '/' := notSlash
    rw [List.splitOn_cons_eq_if_modifyHead, ← ih, some]
    simp [differs]

theorem components_intercalate {steps : List (List Char)} (some : steps ≠ [])
    (whole : ∀ step ∈ steps, '/' ∉ step) : components (['/'].intercalate steps) = steps := by
  rw [components_eq_splitOn, List.splitOn_intercalate _ whole some]

theorem components_whole (text : List Char) : ∀ step ∈ components text, '/' ∉ step := by
  fun_induction components text with
  | case1 => simp
  | case2 rest ih => simpa using ih
  | case3 c rest notSlash none ih => simpa using Ne.symm notSlash
  | case4 c rest notSlash first others some ih =>
    rw [some, List.forall_mem_cons] at ih
    refine List.forall_mem_cons.mpr ⟨?_, ih.2⟩
    simpa [ih.1] using Ne.symm notSlash

theorem intercalate_concat {separator last : List Char} {steps : List (List Char)}
    (some : steps ≠ []) :
    separator.intercalate (steps ++ [last]) = separator.intercalate steps ++ separator ++ last := by
  induction steps with
  | nil => exact absurd rfl some
  | cons first rest ih =>
    cases rest with
    | nil => simp [List.intercalate_cons_cons]
    | cons second others =>
      have inner := ih (List.cons_ne_nil second others)
      rw [List.cons_append] at inner
      rw [List.cons_append, List.cons_append, List.intercalate_cons_cons, inner,
        List.intercalate_cons_cons]
      simp only [List.append_assoc]

theorem getLast?_intercalate {separator last : List Char} (some : last ≠ [])
    (steps : List (List Char)) :
    (separator.intercalate (steps ++ [last])).getLast? = last.getLast? := by
  by_cases alone : steps = []
  · rw [alone, List.nil_append, List.intercalate_singleton]
  · rw [intercalate_concat alone, List.getLast?_append, List.getLast?_eq_some_getLast some]
    rfl

theorem isAbsolute_iff {path : String} :
    isAbsolute path = true ↔ ∃ rest, rest ≠ [] ∧ components path.toList = [] :: rest := by
  unfold isAbsolute
  fun_cases components path.toList with
  | case1 => simp
  | case2 rest => simp [components_eq_splitOn]
  | case3 c rest notSlash none => simp_all
  | case4 c rest notSlash first others some => simpa using notSlash

/-! ## The directory of a name -/

/-- A text that names something in a directory. -/
structure IsName (name : String) : Prop where
  whole : '/' ∉ name.toList
  leads : isEmptyStep name.toList = false
  down : name.toList ≠ ['.', '.']

/-- The path of the directory that some components lead to, latest first. -/
def dirPath (before : List (List Char)) : String :=
  let steps := (trimSteps before).reverse
  String.ofList (if steps == [[]] then ['/'] else ['/'].intercalate steps)

theorem splitName?_eq_some {path dir name : String} :
    splitName? path = some (dir, name) ↔ ∃ before trailing,
      (components path.toList).reverse = trailing ++ name.toList :: before ∧
      (∀ step ∈ trailing, isEmptyStep step) ∧ isEmptyStep name.toList = false ∧
      name.toList ≠ ['.', '.'] ∧ dir = dirPath before := by
  unfold splitName?
  constructor
  · intro h
    have cut := List.takeWhile_append_dropWhile (p := isEmptyStep)
      (l := (components path.toList).reverse)
    have first := List.head?_dropWhile_not isEmptyStep (components path.toList).reverse
    have empty : ∀ step ∈ (components path.toList).reverse.takeWhile isEmptyStep,
        isEmptyStep step := List.all_eq_true.mp List.all_takeWhile
    split at h
    · cases h
    · next last before found =>
      rw [found] at cut first
      split at h
      · cases h
      · next notUp =>
        cases h
        refine ⟨before, _, by rw [String.toList_ofList, cut], empty, ?_, ?_, rfl⟩
        · simpa using first
        · simpa using notUp
  · rintro ⟨before, trailing, cut, empty, leads, down, rfl⟩
    rw [cut, List.dropWhile_append_of_pos (by simpa using empty),
      List.dropWhile_cons_of_neg (by simp [leads])]
    simp [down, dirPath]

section TrimSteps

variable (before : List (List Char))

theorem trimSteps_subset : trimSteps before ⊆ before := by
  fun_induction trimSteps before with
  | case1 => exact List.Subset.refl _
  | case2 first => exact List.Subset.refl _
  | case3 last rest _ _ ih => exact List.subset_cons_of_subset _ ih
  | case4 last rest _ _ => exact List.Subset.refl _

theorem trimSteps_trimSteps : trimSteps (trimSteps before) = trimSteps before := by
  fun_induction trimSteps before with
  | case1 => rfl
  | case2 first => rfl
  | case3 last rest _ _ ih => exact ih
  | case4 last rest some leads =>
    cases rest with
    | nil => exact absurd rfl some
    | cons second others => simp [trimSteps, leads]

/-- The first component of all stays. -/
theorem getLast?_trimSteps : (trimSteps before).getLast? = before.getLast? := by
  fun_induction trimSteps before with
  | case1 => rfl
  | case2 first => rfl
  | case3 last rest some _ ih =>
    cases rest with
    | nil => exact absurd rfl some
    | cons second others => rw [ih, List.getLast?_cons_cons]
  | case4 last rest _ _ => rfl

variable {before}

theorem ne_nil_of_trimSteps_eq_cons {last : List Char} {rest : List (List Char)}
    (h : trimSteps before = last :: rest) (more : rest ≠ []) : last ≠ [] := by
  fun_induction trimSteps before with
  | case1 => cases h
  | case2 first => cases h; exact absurd rfl more
  | case3 _ _ _ _ ih => exact ih h
  | case4 _ _ _ leads =>
    cases h
    rintro rfl
    simp [isEmptyStep] at leads

end TrimSteps

theorem IsName.relative {name : String} (h : IsName name) : isAbsolute name = false := by
  unfold isAbsolute
  cases chars : name.toList with
  | nil => rfl
  | cons c rest =>
    have notSlash : '/' ∉ c :: rest := chars ▸ h.whole
    simpa using fun same : c = '/' => notSlash (by simp [same])

/-- A name inside the directory of some components stands behind these. -/
theorem join_dirPath {before : List (List Char)} {name : String} (h : IsName name)
    (whole : ∀ step ∈ before, '/' ∉ step) : (join (dirPath before) name).toList =
      ['/'].intercalate ((trimSteps before).reverse ++ [name.toList]) := by
  have relative := h.relative
  unfold join
  rw [if_neg (by simp [relative])]
  cases trimmed : trimSteps before with
  | nil => simp [dirPath, trimmed]
  | cons last rest =>
    by_cases root : last = []
    · have single : rest = [] := by
        by_contra more
        exact ne_nil_of_trimSteps_eq_cons trimmed more root
      simp [dirPath, trimmed, root, single, List.intercalate_cons_cons]
    · have text : (dirPath before).toList = ['/'].intercalate (rest.reverse ++ [last]) := by
        have notRoot : rest.reverse ++ [last] ≠ [[]] := fun same =>
          root (by simpa using congrArg List.getLast? same)
        simp [dirPath, trimmed, notRoot]
      have ends : (dirPath before).toList.getLast? = last.getLast? := by
        rw [text, getLast?_intercalate root]
      have noSlash : (dirPath before).toList.getLast? ≠ some '/' := by
        rw [ends]
        intro slash
        have member : last ∈ before := trimSteps_subset before (trimmed ▸ List.mem_cons_self)
        exact whole last member (List.mem_of_getLast? slash)
      have some : (dirPath before).isEmpty = false := by
        by_contra none
        have none : (dirPath before).toList = [] := by simpa using none
        rw [none, List.getLast?_nil, eq_comm, List.getLast?_eq_none_iff] at ends
        exact root ends
      have steps : rest.reverse ++ [last] ≠ [] := by simp
      rw [if_neg (by simp [some, noSlash]), List.reverse_cons, intercalate_concat steps, ← text]
      simp

theorem components_join {before : List (List Char)} {name : String} (h : IsName name)
    (whole : ∀ step ∈ before, '/' ∉ step) : components (join (dirPath before) name).toList =
      (trimSteps before).reverse ++ [name.toList] := by
  rw [join_dirPath h whole, components_intercalate (by simp)]
  intro step member
  rcases List.mem_append.mp member with inside | last
  · exact whole step (trimSteps_subset before (List.mem_reverse.mp inside))
  · exact List.mem_singleton.mp last ▸ h.whole

section Sibling

variable {path dir name sibling : String}

/-- A path that ends with a name, by its components. What stands behind the name leads nowhere. -/
theorem components_of_splitName? (found : splitName? path = some (dir, name)) :
    IsName name ∧ ∃ before trailing, dir = dirPath before ∧
      components path.toList = before.reverse ++ name.toList :: trailing ∧
      (∀ step ∈ before, '/' ∉ step) ∧ ∀ step ∈ trailing, isEmptyStep step := by
  obtain ⟨before, trailing, cut, empty, leads, down, rfl⟩ := splitName?_eq_some.mp found
  have cut : components path.toList = before.reverse ++ name.toList :: trailing.reverse := by
    simpa using congrArg List.reverse cut
  have whole := components_whole path.toList
  rw [cut] at whole
  refine ⟨⟨whole _ (by simp), leads, down⟩, before, trailing.reverse, rfl, cut, ?_, by simpa⟩
  exact fun step member => whole step (by simp [member])

variable (found : splitName? path = some (dir, name)) (h : IsName sibling)

include found h

/-- What is put into the directory of a name is found there. -/
theorem splitName?_join : splitName? (join dir sibling) = some (dir, sibling) := by
  obtain ⟨_, before, _, rfl, _, whole, _⟩ := components_of_splitName? found
  refine splitName?_eq_some.mpr ⟨trimSteps before, [], ?_, by simp, h.leads, h.down, ?_⟩
  · rw [components_join h whole]
    simp
  · simp [dirPath, trimSteps_trimSteps]

theorem isAbsolute_join : isAbsolute (join dir sibling) = isAbsolute path := by
  obtain ⟨named, before, trailing, rfl, cut, whole, _⟩ := components_of_splitName? found
  have someName : ∀ {name : String}, IsName name → name.toList ≠ [] := fun named none => by
    simpa [none, isEmptyStep] using named.leads
  have starts : ∀ (before : List (List Char)) (last : List Char) (rest : List (List Char)),
      last ≠ [] → ((∃ others, others ≠ [] ∧ before.reverse ++ last :: rest = [] :: others) ↔
        before.getLast? = some []) := by
    intro before last rest some
    rcases List.eq_nil_or_concat before with rfl | ⟨inner, first, rfl⟩
    · simp [some]
    · simp
  rw [Bool.eq_iff_iff, isAbsolute_iff, isAbsolute_iff, components_join h whole, cut,
    starts _ _ _ (someName h), starts _ _ _ (someName named), getLast?_trimSteps]

end Sibling

/-! ## Stems -/

/-- A name is its stem, or goes on behind it with a dot and no other one. -/
theorem stem_spec (name : String) : stem name = name ∨
    ∃ ending, '.' ∉ ending ∧ name.toList = (stem name).toList ++ '.' :: ending := by
  unfold stem
  dsimp only
  have cut := List.takeWhile_append_dropWhile (p := (· != '.')) (l := name.toList.reverse)
  have first := List.head?_dropWhile_not (· != '.') name.toList.reverse
  have noDot : ∀ c ∈ name.toList.reverse.takeWhile (· != '.'), (c != '.') = true :=
    List.all_eq_true.mp List.all_takeWhile
  cases left : name.toList.reverse.dropWhile (· != '.') with
  | nil => simp
  | cons c before =>
    rw [left] at first cut
    split
    · exact .inl rfl
    · refine .inr ⟨(name.toList.reverse.takeWhile (· != '.')).reverse, ?_, ?_⟩
      · intro dot
        simpa using noDot '.' (List.mem_reverse.mp dot)
      · have isDot : c = '.' := by simpa using first
        have whole := congrArg List.reverse cut
        simpa [isDot] using whole.symm

/-- What goes on behind the stem of a name, and then behind a dot, is another name. -/
theorem IsName.behind_stem {name : String} (h : IsName name) {suffix ending : String}
    (some : suffix ≠ "") (whole : '/' ∉ suffix.toList) (someEnding : ending ≠ "")
    (wholeEnding : '/' ∉ ending.toList) : IsName (stem name ++ suffix ++ "." ++ ending) ∧
      stem name ++ suffix ++ "." ++ ending ≠ name := by
  have text : (stem name ++ suffix ++ "." ++ ending).toList =
      (stem name).toList ++ (suffix.toList ++ '.' :: ending.toList) := by simp
  obtain ⟨c, rest, suffixed⟩ := List.exists_cons_of_ne_nil (mt String.toList_eq_nil_iff.mp some)
  obtain ⟨d, others, ends⟩ :=
    List.exists_cons_of_ne_nil (mt String.toList_eq_nil_iff.mp someEnding)
  have long : 2 < (stem name ++ suffix ++ "." ++ ending).toList.length := by
    rw [text, suffixed, ends]
    simp
    omega
  have isOther : stem name ++ suffix ++ "." ++ ending ≠ name := by
    intro same
    have same := text.symm.trans (congrArg String.toList same)
    rcases stem_spec name with unchanged | ⟨before, noDot, cut⟩
    · simp [unchanged, suffixed] at same
    · rw [cut, List.append_cancel_left_eq, suffixed] at same
      obtain ⟨_, rfl⟩ := List.cons.inj same
      exact noDot (by simp)
  have stemWhole : '/' ∉ (stem name).toList := by
    have nameWhole := h.whole
    rcases stem_spec name with unchanged | ⟨before, _, cut⟩
    · rwa [unchanged]
    · rw [cut] at nameWhole
      exact fun slash => nameWhole (List.mem_append_left _ slash)
  refine ⟨⟨by rw [text]; simp [stemWhole, whole, wholeEnding], ?_, fun up => ?_⟩, isOther⟩
  · generalize (stem name ++ suffix ++ "." ++ ending).toList = chars at long
    match chars with
    | _ :: _ :: _ => simp [isEmptyStep]
  · simp [up] at long

end MiddlewareStack.Files
