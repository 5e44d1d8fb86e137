import MiddlewareStack.Proofs.ConfiguredPaths

/-!
# The grammar of configured paths

A configured path is one identifier or more with separators between them, behind one more separator
or not. No identifier has a colon in it, so that cutting the text gives the identifiers back and its
front tells whether it is rooted. Of a run of colons that is longer than a separator, one is left in
what is cut, and an empty place is no identifier either: such texts are refused.
-/

namespace MiddlewareStack.Text

/-- An identifier as a configuration writes it: a letter or an underscore, and behind it letters,
digits and underscores. -/
def IsIdentifier (name : String) : Prop :=
  ∃ c rest, name.toList = c :: rest ∧ (isAlphabetic c ∨ c = '_') ∧
    ∀ x ∈ rest, isAlphanumeric x ∨ x = '_'

/-- A text is a path of these identifiers, which starts at a separator or not. -/
structure WritesPath (rooted : Bool) (names : List String) (text : String) : Prop where
  nonempty : names ≠ []
  identifiers : ∀ name ∈ names, IsIdentifier name
  same : text = markedText rooted names

variable {name first text : String} {names others : List String} {rooted : Bool}

theorem isIdentifier_iff : isIdentifier name.toList ↔ IsIdentifier name := by
  unfold IsIdentifier
  cases name.toList with
  | nil => simp [isIdentifier]
  | cons c rest =>
    have letter : isAlphabetic c → isAlphanumeric c := fun h => by simp [isAlphanumeric, h]
    simp only [isIdentifier, isIdentifierTail, List.head?_cons, Option.any_some, List.isEmpty_cons,
      Bool.not_false, Bool.true_and, List.all_cons, Bool.and_eq_true, Bool.or_eq_true, beq_iff_eq,
      List.all_eq_true, List.cons.injEq]
    constructor
    · rintro ⟨start, _, continues⟩
      exact ⟨c, rest, ⟨rfl, rfl⟩, start, continues⟩
    · rintro ⟨_, _, ⟨rfl, rfl⟩, start, continues⟩
      exact ⟨start, start.imp_left letter, continues⟩

theorem IsIdentifier.no_colon (h : IsIdentifier name) : ':' ∉ name.toList := by
  obtain ⟨c, rest, chars, start, continues⟩ := h
  have neither : ¬(isAlphabetic ':' ∨ ':' = '_') ∧ ¬(isAlphanumeric ':' ∨ ':' = '_') := by
    decide +kernel
  rw [chars, List.mem_cons, not_or]
  exact ⟨fun same => neither.1 (same ▸ start), fun member => neither.2 (continues _ member)⟩

/-- A name in front of which no separator can be mistaken. -/
def StartsApart (name : String) : Prop :=
  ∃ c rest, name.toList = c :: rest ∧ c ≠ ':'

theorem IsIdentifier.startsApart (h : IsIdentifier name) : StartsApart name := by
  have absent := h.no_colon
  obtain ⟨c, rest, chars, _⟩ := h
  rw [chars, List.mem_cons, not_or] at absent
  exact ⟨c, rest, chars, Ne.symm absent.1⟩

theorem pathText_head (apart : StartsApart first) (others : List String) :
    ∃ c behind, (pathText (first :: others)).toList = c :: behind ∧ c ≠ ':' := by
  obtain ⟨c, rest, chars, noColon⟩ := apart
  obtain ⟨behind, text⟩ := Source.pathText_cons first others
  rw [chars] at text
  exact ⟨c, _, text, noColon⟩

/-- What is in front of a path tells whether it is rooted. -/
theorem prefix_markedText_iff (apart : StartsApart first) :
    [':', ':'] <+: (markedText rooted (first :: others)).toList ↔ rooted := by
  rw [Source.markedText_toList]
  cases rooted with
  | true => simp
  | false =>
    obtain ⟨c, behind, text, noColon⟩ := pathText_head apart others
    simp [text, noColon.symm]

/-- Without what is in front, the names are left. -/
theorem dropLeadingSeparator_markedText (apart : StartsApart first) :
    dropLeadingSeparator (markedText rooted (first :: others)).toList =
      (pathText (first :: others)).toList := by
  rw [Source.markedText_toList]
  cases rooted with
  | true => rfl
  | false =>
    obtain ⟨c, behind, text, noColon⟩ := pathText_head apart others
    rw [text]
    unfold dropLeadingSeparator
    split <;> simp_all

namespace WritesPath

/-- The names of a path are what is between its separators. -/
theorem segments_eq (h : WritesPath rooted names text) :
    (splitSegments (dropLeadingSeparator text.toList)).map String.ofList = names := by
  obtain ⟨nonempty, identifiers, rfl⟩ := h
  obtain ⟨first, others, rfl⟩ := List.exists_cons_of_ne_nil nonempty
  rw [dropLeadingSeparator_markedText (identifiers first List.mem_cons_self).startsApart]
  exact segments_pathText nonempty fun name member => (identifiers name member).no_colon

theorem rooted_iff (h : WritesPath rooted names text) : [':', ':'] <+: text.toList ↔ rooted := by
  obtain ⟨nonempty, identifiers, rfl⟩ := h
  obtain ⟨first, others, rfl⟩ := List.exists_cons_of_ne_nil nonempty
  exact prefix_markedText_iff (identifiers first List.mem_cons_self).startsApart

theorem isPath (h : WritesPath rooted names text) : isPath text.toList := by
  have segments := h.segments_eq
  rw [Text.isPath, Bool.and_eq_true, List.all_eq_true, Bool.not_eq_true', List.isEmpty_eq_false_iff]
  constructor
  · intro empty
    rw [empty] at segments
    have single : names = [""] := segments.symm
    obtain ⟨c, rest, chars, _⟩ := h.identifiers "" (single ▸ List.mem_singleton_self _)
    cases chars
  · intro segment member
    have name := h.identifiers (String.ofList segment)
      (segments ▸ List.mem_map_of_mem member)
    rw [← isIdentifier_iff, String.toList_ofList] at name
    exact name

end WritesPath

/-- The accepted texts are those of paths, each of one path only. -/
theorem isPath_iff_writesPath (text : String) :
    (isPath text.toList ↔ ∃ rooted names, WritesPath rooted names text) ∧
      ∀ rooted names rooted' names', WritesPath rooted names text →
        WritesPath rooted' names' text → rooted = rooted' ∧ names = names' := by
  refine ⟨⟨fun accepted => ?_, fun ⟨_, _, writes⟩ => writes.isPath⟩, ?_⟩
  · obtain ⟨rooted, first, others, same, identifiers⟩ := exists_markedText_of_isPath accepted
    exact ⟨rooted, first :: others, List.cons_ne_nil _ _,
      fun name member => isIdentifier_iff.mp (identifiers name member), same⟩
  · intro rooted names rooted' names' writes writes'
    refine ⟨Bool.eq_iff_iff.mpr ?_, writes.segments_eq.symm.trans writes'.segments_eq⟩
    exact writes.rooted_iff.symm.trans writes'.rooted_iff

theorem rooted_path_written_once :
    WritesPath true ["http", "Request"] "::http::Request" ∧ isPath "::http::Request".toList ∧
      ∀ rooted names, WritesPath rooted names "::http::Request" →
        true = rooted ∧ ["http", "Request"] = names := by
  have identifiers : ∀ name ∈ ["http", "Request"], IsIdentifier name := by
    intro name member
    have all : ∀ name ∈ ["http", "Request"], isIdentifier name.toList := by decide +kernel
    exact isIdentifier_iff.mp (all name member)
  have writes : WritesPath true ["http", "Request"] "::http::Request" :=
    ⟨List.cons_ne_nil _ _, identifiers, by decide⟩
  obtain ⟨accepted, once⟩ := isPath_iff_writesPath "::http::Request"
  exact ⟨writes, accepted.mpr ⟨_, _, writes⟩, fun rooted names => once _ _ rooted names writes⟩

example : ["", "::", "http::", ":::http", "http:::Request", "http::::Request", "&Request"].all
    (!isPath ·.toList) := by decide +kernel

end MiddlewareStack.Text
