import Mathlib.Data.Bool.AllAny
import Mathlib.Data.List.Induction
import MiddlewareStack.Text.SnakeCase

/-!
# Words of a name in snake case

Of a name in ASCII every letter is written in lower case, and an underscore is put in front of those
that start a word. What is before such an underscore is a letter or a digit, and what is behind it
is the letter, so that no two underscores meet but those that met in the name. A text without
upper-case letters has no words to start, and stays as it is.
-/

namespace MiddlewareStack.Text

/-- An upper-case letter starts a word behind a lower-case letter or a digit, and between an
upper-case letter and a lower-case one. -/
def StartsWord (previous : Option Char) (c : Char) (next : Option Char) : Prop :=
  c.isUpper ∧ ∃ p ∈ previous, p.isLower ∨ p.isDigit ∨ p.isUpper ∧ ∃ n ∈ next, n.isLower

/-- A character as it is written, with an underscore put in front of it or not. -/
structure Letter where
  marked : Bool
  char : Char

def Letter.chars (letter : Letter) : List Char :=
  if letter.marked then ['_', letter.char] else [letter.char]

/-- The text of some letters. -/
def lettersText (letters : List Letter) : List Char :=
  letters.flatMap Letter.chars

/-- The characters of a name are written in lower case, and marked where they start a word. -/
structure Lettering (name : List Char) (letters : List Letter) : Prop where
  lower : letters.map Letter.char = name.map Char.toLower
  marked : ∀ before c after, name = before ++ c :: after →
    (letters[before.length]?.any Letter.marked ↔ StartsWord before.getLast? c after.head?)

def lettersFrom (previous : Option Char) : List Char → List Letter
  | [] => []
  | c :: rest => ⟨isUppercase c && startsWord previous rest.head?, c.toLower⟩ ::
      lettersFrom (some c) rest

/-- All of a text is ASCII. -/
def IsAscii (text : List Char) : Prop :=
  ∀ c ∈ text, c.toNat < 0x80

variable {c : Char} {previous next : Option Char} {name text before after : List Char}
  {letter : Letter} {letters : List Letter}

/-! ## Characters -/

theorem isUppercase_ascii (ascii : c.toNat < 0x80) : isUppercase c = c.isUpper :=
  if_pos ascii

theorem isLowercase_ascii (ascii : c.toNat < 0x80) : isLowercase c = c.isLower :=
  if_pos ascii

theorem toLowercase_ascii (ascii : c.toNat < 0x80) : toLowercase c = [c.toLower] :=
  if_pos ascii

/-- What is known of a character in lower case. No letter or digit is an underscore then. -/
structure IsLowered (c : Char) : Prop where
  ascii : c.toLower.toNat < 0x80
  noUpper : c.toLower.isUpper = false
  same : c.isUpper = false → c.toLower = c
  notUnderscore : c.isLower ∨ c.isDigit ∨ c.isUpper → c.toLower ≠ '_'

theorem isLowered_ascii (ascii : c.toNat < 0x80) : IsLowered c := by
  have all : ∀ code ∈ List.range 0x80, (Char.ofNat code).toLower.toNat < 0x80 ∧
      (Char.ofNat code).toLower.isUpper = false ∧
      ((Char.ofNat code).isUpper = false → (Char.ofNat code).toLower = Char.ofNat code) ∧
      ((Char.ofNat code).isLower ∨ (Char.ofNat code).isDigit ∨ (Char.ofNat code).isUpper →
        (Char.ofNat code).toLower ≠ '_') := by
    decide +kernel
  have known := all c.toNat (List.mem_range.mpr ascii)
  rw [Char.ofNat_toNat] at known
  obtain ⟨ascii, noUpper, same, notUnderscore⟩ := known
  exact { ascii, noUpper, same, notUnderscore }

theorem startsWord_iff (ascii : ∀ p ∈ previous, p.toNat < 0x80)
    (ascii' : ∀ n ∈ next, n.toNat < 0x80) :
    startsWord previous next ↔
      ∃ p ∈ previous, p.isLower ∨ p.isDigit ∨ p.isUpper ∧ ∃ n ∈ next, n.isLower := by
  have following : next.any isLowercase ↔ ∃ n ∈ next, n.isLower := by
    cases next with
    | none => simp
    | some n => simp [isLowercase_ascii (ascii' n rfl)]
  cases previous with
  | none => simp [startsWord]
  | some p =>
    have known := ascii p rfl
    have unfolded : startsWord (some p) next =
        (p.isLower || (p.isDigit || p.isUpper && next.any isLowercase)) := by
      rw [startsWord, isLowercase_ascii known, isUppercase_ascii known]
      cases p.isLower <;> cases p.isDigit <;> rfl
    rw [unfolded]
    simp [following]

/-! ## Letters -/

theorem lettersText_cons (letter : Letter) (letters : List Letter) :
    lettersText (letter :: letters) = letter.chars ++ lettersText letters :=
  List.flatMap_cons

theorem IsAscii.head? (h : IsAscii text) : ∀ c ∈ text.head?, c.toNat < 0x80 :=
  fun c head => h c (List.mem_of_mem_head? head)

/-- The name is written by its letters. An underscore that was written last is one of the name,
before which no word starts. -/
theorem snakeFrom_eq_lettersText (ascii : IsAscii name) (before : ∀ p ∈ previous, p.toNat < 0x80) :
    snakeFrom previous (previous == some '_') name = lettersText (lettersFrom previous name) := by
  induction name generalizing previous with
  | nil => rfl
  | cons c rest ih =>
    obtain ⟨here, later⟩ := List.forall_mem_cons.mp ascii
    have behind : snakeFrom (some c) (some c == some '_') rest = _ := ih later (by simpa using here)
    rw [snakeFrom, lettersFrom, lettersText_cons, ← behind, Letter.chars]
    simp only [toLowercase_ascii here]
    cases upper : isUppercase c with
    | false =>
      rw [isUppercase_ascii here] at upper
      simp [(isLowered_ascii here).same upper]
    | true =>
      have other : (some c == some '_') = false := by
        rw [isUppercase_ascii here] at upper
        simp only [beq_eq_false_iff_ne, ne_eq, Option.some.injEq]
        rintro rfl
        cases upper
      have apart : startsWord previous rest.head? → (previous == some '_') = false := by
        rw [startsWord_iff before (IsAscii.head? later), beq_eq_false_iff_ne]
        rintro ⟨p, isPrevious, kind⟩ rfl
        cases isPrevious
        simp at kind
      rw [other]
      cases starts : startsWord previous rest.head? with
      | false => rfl
      | true => simp [apart starts]

/-- Letters end with their characters, whether marked or not. -/
theorem getLast?_lettersText (letters : List Letter) :
    (lettersText letters).getLast? = (letters.map Letter.char).getLast? := by
  induction letters using List.reverseRecOn with
  | nil => rfl
  | append_singleton letters letter =>
    have last : letter.chars.getLast? = some letter.char := by
      unfold Letter.chars
      split <;> rfl
    simp [lettersText, List.flatMap_append, last]

theorem filter_lettersText (letters : List Letter) :
    (lettersText letters).filter (· ≠ '_') = (letters.map Letter.char).filter (· ≠ '_') := by
  induction letters with
  | nil => rfl
  | cons letter letters ih =>
    have alone : letter.chars.filter (· ≠ '_') = [letter.char].filter (· ≠ '_') := by
      unfold Letter.chars
      split <;> simp
    rw [lettersText_cons, List.filter_append, alone, ih, ← List.filter_append]
    rfl

theorem mem_lettersText (h : c ∈ lettersText letters) :
    c = '_' ∨ c ∈ letters.map Letter.char := by
  obtain ⟨letter, among, inside⟩ := List.mem_flatMap.mp h
  have found : c = '_' ∨ c = letter.char := by
    unfold Letter.chars at inside
    split at inside <;> simp_all
  rcases found with underscore | rfl
  · exact .inl underscore
  · exact .inr (List.mem_map_of_mem among)

theorem lower_lettersFrom (previous : Option Char) (name : List Char) :
    (lettersFrom previous name).map Letter.char = name.map Char.toLower := by
  induction name generalizing previous with
  | nil => rfl
  | cons c rest ih => rw [lettersFrom, List.map_cons, ih, List.map_cons]

theorem marked_lettersFrom (ascii : IsAscii (before ++ c :: after))
    (earlier : ∀ p ∈ previous, p.toNat < 0x80) :
    (lettersFrom previous (before ++ c :: after))[before.length]?.any Letter.marked ↔
      StartsWord (before.getLast?.or previous) c after.head? := by
  induction before generalizing previous with
  | nil =>
    obtain ⟨here, later⟩ := List.forall_mem_cons.mp ascii
    rw [StartsWord, List.getLast?_nil, Option.none_or,
      ← startsWord_iff earlier (IsAscii.head? later)]
    simp [lettersFrom, isUppercase_ascii here]
  | cons b before ih =>
    obtain ⟨here, later⟩ := List.forall_mem_cons.mp ascii
    have behind : _ ↔ StartsWord (before.getLast?.or (some b)) c after.head? :=
      ih later (by simpa using here)
    have last : (b :: before).getLast?.or previous = before.getLast?.or (some b) := by
      rw [List.getLast?_cons]
      cases before.getLast? <;> rfl
    rw [last, ← behind]
    simp [lettersFrom]

theorem lettering_lettersFrom (ascii : IsAscii name) : Lettering name (lettersFrom none name) where
  lower := lower_lettersFrom none name
  marked := by
    rintro before c after rfl
    rw [marked_lettersFrom ascii (by simp), Option.or_none]

/-- What is in front of an underscore that marks a word is a letter or a digit, and what is behind
it is a letter. -/
theorem Lettering.apart (h : Lettering name letters) (ascii : IsAscii name)
    {before after : List Letter} (split : letters = before ++ letter :: after)
    (marked : letter.marked) :
    lettersText before ≠ [] ∧ (lettersText before).getLast? ≠ some '_' ∧ letter.char ≠ '_' := by
  have lower := h.lower
  rw [split, List.map_append, List.map_cons, eq_comm, List.map_eq_append_iff] at lower
  obtain ⟨front, rest, rfl, front_lower, rest_lower⟩ := lower
  obtain ⟨c, behind, rfl, same, _⟩ := List.map_eq_cons_iff.mp rest_lower
  have length : front.length = before.length := by
    simpa using congrArg List.length front_lower
  have starts : StartsWord front.getLast? c behind.head? := by
    rw [← h.marked front c behind rfl, split, length]
    simpa using marked
  obtain ⟨upper, p, last, kind⟩ := starts
  have asciiFront := (List.forall_mem_append.mp ascii).1
  have asciiRest := (List.forall_mem_append.mp ascii).2
  have ends : (lettersText before).getLast? = some p.toLower := by
    rw [getLast?_lettersText, ← front_lower, List.getLast?_map, last, Option.map_some]
  refine ⟨fun none => ?_, ?_, ?_⟩
  · rw [none] at ends
    cases ends
  · rw [ends, Ne, Option.some.injEq]
    exact (isLowered_ascii (asciiFront p (List.mem_of_mem_getLast? last))).notUnderscore
      (kind.imp_right (Or.imp_right And.left))
  · rw [← same]
    exact (isLowered_ascii (asciiRest c List.mem_cons_self)).notUnderscore (.inr (.inr upper))

/-- A text without upper-case letters stays. -/
theorem snakeFrom_of_lower (lower : ∀ c ∈ text, isUppercase c = false) (previous : Option Char)
    (written : Bool) : snakeFrom previous written text = text := by
  induction text generalizing previous written with
  | nil => rfl
  | cons c rest ih =>
    obtain ⟨here, later⟩ := List.forall_mem_cons.mp lower
    simp [snakeFrom, here, ih later]

/-- Of a name in ASCII, all letters are written in lower case, and an underscore in front of each
that starts a word and nowhere else. None of these underscores is the first character or the last,
or beside another one. The result is its own snake case. -/
theorem snakeCase_marks_words (name : String) (ascii : IsAscii name.toList) :
    (∀ c ∈ (snakeCase name).toList, ¬c.isUpper) ∧
      snakeCase (snakeCase name) = snakeCase name ∧
      (snakeCase name).toList.filter (· ≠ '_') =
        (name.toList.map Char.toLower).filter (· ≠ '_') ∧
      ∃ letters, (snakeCase name).toList = lettersText letters ∧ Lettering name.toList letters ∧
        ∀ before letter after, letters = before ++ letter :: after → letter.marked →
          lettersText before ≠ [] ∧ (lettersText before).getLast? ≠ some '_' ∧
            letter.char ≠ '_' := by
  have lettering := lettering_lettersFrom ascii
  have same : (snakeCase name).toList = lettersText (lettersFrom none name.toList) := by
    rw [snakeCase, String.toList_ofList]
    exact snakeFrom_eq_lettersText ascii (by simp)
  have lowered : ∀ c ∈ (snakeCase name).toList, c.toNat < 0x80 ∧ c.isUpper = false := by
    intro c member
    rw [same] at member
    rcases mem_lettersText member with rfl | letter
    · decide
    · rw [lettering.lower] at letter
      obtain ⟨x, among, rfl⟩ := List.mem_map.mp letter
      exact ⟨(isLowered_ascii (ascii x among)).ascii, (isLowered_ascii (ascii x among)).noUpper⟩
  refine ⟨fun c member => by simp [(lowered c member).2], ?_, ?_, _, same, lettering,
    fun before letter after split => lettering.apart ascii split⟩
  · have stays : snakeChars (snakeCase name).toList = (snakeCase name).toList :=
      snakeFrom_of_lower (fun c member => by
        rw [isUppercase_ascii (lowered c member).1, (lowered c member).2]) _ _
    rw [snakeCase, stays, String.ofList_toList]
  · rw [same, filter_lettersText, lettering.lower]

theorem http_auth_marks_words :
    IsAscii "HTTPAuth2Go_X".toList ∧ snakeCase "HTTPAuth2Go_X" = "http_auth2_go_x" ∧
      snakeCase "http_auth2_go_x" = "http_auth2_go_x" ∧
      ∃ letters, "http_auth2_go_x".toList = lettersText letters ∧
        Lettering "HTTPAuth2Go_X".toList letters := by
  have ascii : IsAscii "HTTPAuth2Go_X".toList := List.all_iff_forall_prop.mp (by decide)
  have written : snakeCase "HTTPAuth2Go_X" = "http_auth2_go_x" := by decide +kernel
  obtain ⟨_, again, _, letters, same, lettering, _⟩ := snakeCase_marks_words "HTTPAuth2Go_X" ascii
  rw [written] at again same
  exact ⟨ascii, written, again, letters, same, lettering⟩

end MiddlewareStack.Text
