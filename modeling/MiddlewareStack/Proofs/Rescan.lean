import Mathlib.Data.List.Forall2
import MiddlewareStack.Proofs.Spelling

/-!
# Scanning what is written

A scan of a text that spells some tokens finds these tokens. Since blanks may be missing between
signs, some that were not joint may be so now.
-/

namespace MiddlewareStack.Source

/-- The same token, in which more characters may be joint. -/
inductive Token.Tighter : Token → Token → Prop
  | ident (name : String) : Tighter (.ident name) (.ident name)
  | punct (c : Char) {joint joint' : Bool} (kept : joint → joint') :
    Tighter (.punct c joint) (.punct c joint')
  | group (d : Delimiter) {content content' : List Token}
      (inside : List.Forall₂ Tighter content content') :
    Tighter (.group d content) (.group d content')

variable {text rest : List Char} {c : Char} {name : String} {token : Token}

/-! ## Single tokens -/

theorem not_isDigit_of_isNameStart (h : isNameStart c) : c.isDigit = false := by
  have none : ∀ code ∈ List.range' 48 10, isNameStart (Char.ofNat code) = false := by decide
  cases digit : c.isDigit with
  | false => rfl
  | true =>
    have code : c.toNat ∈ List.range' 48 10 := by
      simp only [Char.isDigit, Bool.and_eq_true, decide_eq_true_eq, ge_iff_le,
        UInt32.le_iff_toNat_le] at digit
      rw [List.mem_range'_1]
      exact ⟨digit.1, Nat.lt_succ_of_le digit.2⟩
    have absent := none _ code
    rw [Char.ofNat_toNat, h] at absent
    cases absent

/-- Behind letters and digits, neither a quote nor a hash follows. -/
def NoLiteral (text : List Char) : Prop :=
  ∀ front c rest, text = front ++ c :: rest → front.all isNameContinue →
    c ≠ '"' ∧ c ≠ '#' ∧ c ≠ '\''

theorem noLiteral_plain {plain : List Char} (continues : ∀ c ∈ plain, isNameContinue c)
    (ends : EndsWord text) : NoLiteral (plain ++ text) := by
  intro front c rest split inFront
  have ofContinue : isNameContinue c → c ≠ '"' ∧ c ≠ '#' ∧ c ≠ '\'' := fun continues =>
    ⟨ne_of_isNameContinue continues (by decide), ne_of_isNameContinue continues (by decide),
      ne_of_isNameContinue continues (by decide)⟩
  rcases List.append_eq_append_iff.mp split with
    ⟨between, longer, behind⟩ | ⟨between, longer, behind⟩
  · cases between with
    | nil => exact (ends c (by rw [behind]; rfl)).2
    | cons x between =>
      have continues : isNameContinue x :=
        List.all_eq_true.mp inFront x (by simp [longer])
      have stopped := (ends x (by rw [behind]; rfl)).1
      rw [continues] at stopped
      cases stopped
  · cases between with
    | nil => exact (ends c (by rw [List.nil_append] at behind; rw [← behind]; rfl)).2
    | cons x between =>
      obtain ⟨rfl, _⟩ := List.cons.inj behind
      exact ofContinue (continues c (by simp [longer]))

theorem rawTextEnd?_eq_none {kind : TextKind}
    (h : ∀ c behind, rest = c :: behind → c ≠ '"' ∧ c ≠ '#') : rawTextEnd? kind rest = none := by
  cases rest with
  | nil => rfl
  | cons c behind =>
    obtain ⟨noQuote, noHash⟩ := h c behind rfl
    simp [rawTextEnd?, noHash, noQuote]

theorem NoLiteral.textEnd? (h : NoLiteral text) : textEnd? text = none := by
  have raw : ∀ {kind : TextKind} (front : List Char) {rest}, text = front ++ rest →
      front.all isNameContinue → rawTextEnd? kind rest = none := fun _ _ split inFront =>
    rawTextEnd?_eq_none fun c behind same =>
      have found := h _ c behind (same ▸ split) inFront
      ⟨found.1, found.2.1⟩
  unfold Source.textEnd?
  simp only [Option.map_eq_none_iff]
  split
  · next rest => exact absurd rfl (h [] '"' rest rfl rfl).1
  · next rest => exact raw ['r'] rfl (by decide)
  · next rest => exact absurd rfl (h ['b'] '"' rest rfl (by decide)).1
  · next rest => exact raw ['b', 'r'] rfl (by decide)
  · next rest => exact absurd rfl (h ['b'] '\'' rest rfl (by decide)).2.2
  · next rest => exact absurd rfl (h ['c'] '"' rest rfl (by decide)).1
  · next rest => exact raw ['c', 'r'] rfl (by decide)
  · next rest => exact absurd rfl (h [] '\'' rest rfl rfl).2.2
  · rfl

theorem NoLiteral.literalStarts (h : NoLiteral text) :
    (literalStarts.any fun start => start.isPrefixOf text) = false := by
  have shape : ∀ start ∈ Source.literalStarts, ∃ front c behind, start = front ++ c :: behind ∧
      front.all isNameContinue ∧ (c = '"' ∨ c = '#' ∨ c = '\'') := by
    simp only [Source.literalStarts, List.map_cons, List.map_nil, List.forall_mem_cons]
    exact ⟨⟨['r'], '"', [], rfl, by decide⟩, ⟨['r'], '#', ['"'], rfl, by decide⟩,
      ⟨['r'], '#', ['#'], rfl, by decide⟩, ⟨['b'], '"', [], rfl, by decide⟩,
      ⟨['b'], '\'', [], rfl, by decide⟩, ⟨['b', 'r'], '"', [], rfl, by decide⟩,
      ⟨['b', 'r'], '#', [], rfl, by decide⟩, ⟨['c'], '"', [], rfl, by decide⟩,
      ⟨['c', 'r'], '"', [], rfl, by decide⟩, ⟨['c', 'r'], '#', [], rfl, by decide⟩,
      List.forall_mem_nil _⟩
  refine List.any_eq_false.mpr fun start member isPrefix => ?_
  obtain ⟨front, c, behind, rfl, inFront, mark⟩ := shape start member
  obtain ⟨rest, split⟩ := List.isPrefixOf_iff_prefix.mp isPrefix
  obtain ⟨noQuote, noHash, noTick⟩ :=
    h front c (behind ++ rest) (by rw [← split]; simp) inFront
  rcases mark with rfl | rfl | rfl
  · exact noQuote rfl
  · exact noHash rfl
  · exact noTick rfl

/-- Nothing in front of a name is taken for a literal. -/
theorem noLiteral_name (isName : IsName name) (ends : EndsWord text) :
    textEnd? (name.toList ++ text) = none ∧
      (literalStarts.any fun start => start.isPrefixOf (name.toList ++ text)) = false := by
  rcases isName_iff.mp isName with
    ⟨c, others, split, start, continues⟩ | ⟨_, ⟨c, others, rfl, start, _⟩, _, split⟩
  · have plain : NoLiteral (name.toList ++ text) := by
      rw [split]
      exact noLiteral_plain
        (List.forall_mem_cons.mpr ⟨isNameContinue_of_isNameStart start, continues⟩) ends
    exact ⟨plain.textEnd?, plain.literalStarts⟩
  · have noQuote : c ≠ '"' := ne_of_isNameContinue (isNameContinue_of_isNameStart start) (by decide)
    have noHash : c ≠ '#' := ne_of_isNameContinue (isNameContinue_of_isNameStart start) (by decide)
    rw [split]
    constructor
    · simp [Source.textEnd?, rawTextEnd?, noQuote, noHash]
    · simp [Source.literalStarts, List.isPrefixOf, noQuote.symm, noHash.symm]

/-- What tells the first character of a name from all else that starts a lexeme. -/
theorem isName_head (isName : IsName name) :
    ∃ c rest, name.toList = c :: rest ∧ isNameContinue c ∧ Text.isBlank c = false ∧
      c.isDigit = false := by
  rcases isName_iff.mp isName with ⟨c, others, split, start, _⟩ | ⟨_, _, _, split⟩
  · exact ⟨c, others, split, isNameContinue_of_isNameStart start, not_isBlank_of_isNameStart start,
      not_isDigit_of_isNameStart start⟩
  · exact ⟨'r', _, split, by decide, by decide, by decide⟩

/-- The mark of an error starts with a parenthesis and a slash. -/
theorem not_errorMark (h : ∀ behind, text ≠ '(' :: '/' :: behind) :
    errorMark.isPrefixOf text = false := by
  have mark : errorMark = ['(', '/'] ++ "*ERROR*/)".toList := rfl
  cases found : errorMark.isPrefixOf text with
  | false => rfl
  | true =>
    obtain ⟨behind, split⟩ := List.isPrefixOf_iff_prefix.mp found
    rw [mark] at split
    exact absurd split.symm (h _)

theorem leaf?_name (isName : IsName name) (ends : EndsWord text) :
    leaf? (name.toList ++ text) = some (.ident name, text) := by
  obtain ⟨noText, noLiteral⟩ := noLiteral_name isName ends
  obtain ⟨c, rest, split, continues, _, noDigit⟩ := isName_head isName
  have noMark : errorMark.isPrefixOf (name.toList ++ text) = false := by
    have ne : c ≠ '(' := ne_of_isNameContinue continues (by decide)
    refine not_errorMark fun behind same => ne ?_
    rw [split] at same
    exact (List.cons.inj same).1
  have noNumber : numberEnd? (name.toList ++ text) = none := by
    simp [split, numberEnd?, noDigit]
  have noSign : punctuation? (name.toList ++ text) = none := by
    have none : ∀ x ∈ "~!@#$%^&*-=+|;:,<.>/?'".toList, isNameContinue x = false :=
      List.all_iff_forall_prop.mp (by decide)
    have notSign : isPunctuation c = false := by
      rw [isPunctuation, decide_eq_false_iff_not]
      intro member
      rw [none c member] at continues
      cases continues
    have stops : startsPunctuation (c :: (rest ++ text)) = false := by
      unfold startsPunctuation
      split <;> simp_all
    simp [split, punctuation?, stops]
  have read : name? (name.toList ++ text) = some (name, text) :=
    isName.name?_append (fun c head => (ends c head).1) fun head =>
      (ends '#' head).2.2.1 rfl
  simp [leaf?, literalEnd?, noMark, noText, noNumber, noSign, noLiteral, read]

/-- What tells a sign from all else that starts a lexeme. -/
structure IsSign.Apart (c : Char) : Prop where
  notBlank : Text.isBlank c = false
  noDigit : c.isDigit = false
  noOpening : Delimiter.ofOpening? c = none
  noClosing : Delimiter.ofClosing? c = none
  noText : c ≠ '"' ∧ c ≠ 'r' ∧ c ≠ 'b' ∧ c ≠ 'c' ∧ c ≠ '\''
  noSlash : c ≠ '/'
  noParenthesis : c ≠ '('

theorem IsSign.apart (h : IsSign c) : IsSign.Apart c := by
  have member : c ∈ "~!@#$%^&*-=+|;:,<.>/?'".toList := by simpa [isPunctuation] using h.1
  have all : ∀ c ∈ "~!@#$%^&*-=+|;:,<.>/?'".toList, IsSign c → Text.isBlank c = false ∧
      c.isDigit = false ∧ Delimiter.ofOpening? c = none ∧ Delimiter.ofClosing? c = none ∧
      (c ≠ '"' ∧ c ≠ 'r' ∧ c ≠ 'b' ∧ c ≠ 'c' ∧ c ≠ '\'') ∧ c ≠ '/' ∧ c ≠ '(' :=
    List.all_iff_forall_prop.mp (by decide)
  obtain ⟨notBlank, noDigit, noOpening, noClosing, noText, noSlash, noParenthesis⟩ := all c member h
  exact { notBlank, noDigit, noOpening, noClosing, noText, noSlash, noParenthesis }

theorem IsSign.startsPunctuation (h : IsSign c) : startsPunctuation (c :: text) := by
  have noSlash := h.2.1
  unfold Source.startsPunctuation
  split
  · simp_all
  · simp_all
  · next same =>
    cases same
    exact h.1
  · simp_all

theorem leaf?_sign (h : IsSign c) :
    leaf? (c :: text) = some (.punct c (startsPunctuation text), text) := by
  obtain ⟨noQuote, noR, noB, noC, noTick⟩ := h.apart.noText
  have noMark : errorMark.isPrefixOf (c :: text) = false :=
    not_errorMark fun behind same => h.apart.noParenthesis (List.cons.inj same).1
  have noText : textEnd? (c :: text) = none := by
    unfold textEnd?
    split <;> simp_all
  have noNumber : numberEnd? (c :: text) = none := by simp [numberEnd?, h.apart.noDigit]
  simp [leaf?, literalEnd?, noMark, noText, noNumber, punctuation?, h.startsPunctuation, noTick]

/-- A quote before a name is that of a lifetime and not of a character, as no quote follows. -/
theorem leaf?_quote (isName : IsName name) (ends : EndsWord text) :
    leaf? ('\'' :: (name.toList ++ text)) = some (.punct '\'' true, name.toList ++ text) := by
  obtain ⟨c, rest, split, continues, _, _⟩ := isName_head isName
  have noTick : ∀ behind, rest ++ text ≠ '\'' :: behind := by
    intro behind same
    cases rest with
    | nil => exact (ends '\'' (by rw [List.nil_append] at same; rw [same]; rfl)).2.2.2 rfl
    | cons x others =>
      obtain ⟨rfl, _⟩ := List.cons.inj same
      have absent : '\'' ∉ name.toList := isName.not_mem (by decide) (by decide)
      exact absent (by simp [split])
  have noCharacter : characterEnd? .string (name.toList ++ text) = none := by
    have noEscape : c ≠ '\\' := ne_of_isNameContinue continues (by decide)
    rw [split, List.cons_append]
    unfold characterEnd?
    split
    · next behind same => exact absurd (List.cons.inj same).1 noEscape
    · next same =>
      obtain ⟨rfl, rfl⟩ := List.cons.inj same
      dsimp only
      split
      · next behind found =>
        split at found
        · exact absurd (Option.some.inj found) (noTick behind)
        · cases found
      · rfl
    · rfl
  have noMark : errorMark.isPrefixOf ('\'' :: (name.toList ++ text)) = false :=
    not_errorMark nofun
  have read : name? (name.toList ++ text) = some (name, text) :=
    isName.name?_append (fun c head => (ends c head).1) fun head =>
      (ends '#' head).2.2.1 rfl
  have quoted : quote? (name.toList ++ text) = some (.punct '\'' true) := by
    simp only [quote?, read]
    split
    · exact absurd rfl (ends '\'' rfl).2.2.2
    · exact absurd rfl (ends '#' rfl).2.2.1
    · rfl
  have isPunct : startsPunctuation ('\'' :: (name.toList ++ text)) = true := rfl
  simp [leaf?, literalEnd?, noMark, textEnd?, noCharacter, numberEnd?, punctuation?, isPunct,
    quoted]

/-! ## Runs of a scan -/

/-- Where a scan stands: the groups that are open, what was read in the innermost, and the text that
is left. -/
structure ScanState where
  groups : OpenGroups := []
  read : List Token := []
  text : List Char

namespace ScanState

variable {a b c : ScanState}

/-- The second state is on the way of a scan from the first, however many steps there may be. -/
def Reaches (a b : ScanState) : Prop :=
  ∀ bound > a.text.length, ∃ bound' > b.text.length,
    scanFrom bound a.groups a.read a.text = scanFrom bound' b.groups b.read b.text

theorem Reaches.refl : a.Reaches a :=
  fun bound enough => ⟨bound, enough, rfl⟩

theorem Reaches.trans (h : a.Reaches b) (h' : b.Reaches c) : a.Reaches c := by
  intro bound enough
  obtain ⟨bound', enough', same⟩ := h bound enough
  obtain ⟨bound'', enough'', same'⟩ := h' bound' enough'
  exact ⟨bound'', enough'', same.trans same'⟩

/-- One step, which takes at least one character. -/
theorem Reaches.step (shorter : b.text.length < a.text.length)
    (h : ∀ bound, scanFrom (bound + 1) a.groups a.read a.text =
      scanFrom bound b.groups b.read b.text) : a.Reaches b := by
  intro bound enough
  cases bound with
  | zero => exact absurd enough (Nat.not_lt_zero _)
  | succ bound => exact ⟨bound, by omega, h bound⟩

end ScanState

variable {groups : OpenGroups} {read : List Token} {d : Delimiter}

theorem comment?_eq_none (noSlash : c ≠ '/') : comment? (c :: text) = none := by
  unfold comment?
  split <;> simp_all

/-- What is no delimiter neither opens a group nor closes one. -/
theorem not_delimiter (apart : ∀ d : Delimiter, c ≠ d.opening ∧ c ≠ d.closing) :
    Delimiter.ofOpening? c = none ∧ Delimiter.ofClosing? c = none := by
  constructor
  · unfold Delimiter.ofOpening?
    split
    · exact absurd rfl (apart .parenthesis).1
    · exact absurd rfl (apart .bracket).1
    · exact absurd rfl (apart .brace).1
    · rfl
  · unfold Delimiter.ofClosing?
    split
    · exact absurd rfl (apart .parenthesis).2
    · exact absurd rfl (apart .bracket).2
    · exact absurd rfl (apart .brace).2
    · rfl

theorem lexeme?_leaf (noComment : comment? (c :: text) = none)
    (noOpening : Delimiter.ofOpening? c = none) (noClosing : Delimiter.ofClosing? c = none)
    (h : leaf? (c :: text) = some (token, rest)) :
    lexeme? (c :: text) = some (.tokens [token], rest) := by
  simp [lexeme?, noComment, noOpening, noClosing, h]

open ScanState

theorem reaches_blank : Reaches ⟨groups, read, ' ' :: text⟩ ⟨groups, read, text⟩ :=
  .step (by simp) fun bound => by simp [scanFrom, Text.isBlank]

theorem reaches_leaf (notBlank : Text.isBlank c = false) (noComment : comment? (c :: text) = none)
    (noOpening : Delimiter.ofOpening? c = none) (noClosing : Delimiter.ofClosing? c = none)
    (h : leaf? (c :: text) = some (token, rest)) (shorter : rest.length < (c :: text).length) :
    Reaches ⟨groups, read, c :: text⟩ ⟨groups, token :: read, rest⟩ :=
  .step shorter fun bound => by
    simp [scanFrom, notBlank, noComment, lexeme?_leaf noComment noOpening noClosing h]

theorem reaches_name (isName : IsName name) (ends : EndsWord text) :
    Reaches ⟨groups, read, name.toList ++ text⟩ ⟨groups, .ident name :: read, text⟩ := by
  have found := leaf?_name isName ends
  obtain ⟨c, rest, split, continues, notBlank, _⟩ := isName_head isName
  have ne : ∀ {x}, isNameContinue x = false → c ≠ x := fun stops =>
    ne_of_isNameContinue continues stops
  obtain ⟨noOpening, noClosing⟩ := not_delimiter (c := c) fun d =>
    ⟨ne (by cases d <;> decide), ne (by cases d <;> decide)⟩
  rw [split, List.cons_append] at found ⊢
  have shorter : text.length < (c :: (rest ++ text)).length := by
    rw [List.length_cons, List.length_append]
    omega
  exact reaches_leaf notBlank (comment?_eq_none (ne (by decide))) noOpening noClosing found shorter

theorem reaches_sign (h : IsSign c) : Reaches ⟨groups, read, c :: text⟩
    ⟨groups, .punct c (startsPunctuation text) :: read, text⟩ :=
  reaches_leaf h.apart.notBlank (comment?_eq_none h.apart.noSlash) h.apart.noOpening
    h.apart.noClosing (leaf?_sign h) (by simp)

theorem reaches_quote (isName : IsName name) (ends : EndsWord text) :
    Reaches ⟨groups, read, '\'' :: (name.toList ++ text)⟩
      ⟨groups, .punct '\'' true :: read, name.toList ++ text⟩ :=
  reaches_leaf (by decide) (comment?_eq_none (by decide)) (by decide) (by decide)
    (leaf?_quote isName ends) (by simp)

theorem reaches_opening (noMark : errorMark.isPrefixOf (d.opening :: text) = false) :
    Reaches ⟨groups, read, d.opening :: text⟩ ⟨(d, read) :: groups, [], text⟩ :=
  .step (by simp) fun bound => by
    have noComment : comment? (d.opening :: text) = none := comment?_eq_none (by cases d <;> decide)
    have notBlank : Text.isBlank d.opening = false := by cases d <;> decide
    have opens : Delimiter.ofOpening? d.opening = some d := by cases d <;> rfl
    simp [scanFrom, lexeme?, notBlank, noComment, opens, noMark]

theorem reaches_closing {before : List Token} :
    Reaches ⟨(d, before) :: groups, read, d.closing :: text⟩
      ⟨groups, .group d read.reverse :: before, text⟩ :=
  .step (by simp) fun bound => by
    have noComment : comment? (d.closing :: text) = none := comment?_eq_none (by cases d <;> decide)
    have notBlank : Text.isBlank d.closing = false := by cases d <;> decide
    have noOpening : Delimiter.ofOpening? d.closing = none := by cases d <;> rfl
    have closes : Delimiter.ofClosing? d.closing = some d := by cases d <;> rfl
    simp [scanFrom, lexeme?, notBlank, noComment, noOpening, closes]

theorem dropOrderMark_eq (h : text.head? ≠ some '\ufeff') : dropOrderMark text = text := by
  unfold dropOrderMark
  split
  · exact absurd rfl h
  · rfl

/-- A scan that reads the whole text as some tokens finds these. -/
theorem scan?_of_reaches {found : List Token} (noMark : dropOrderMark text = text)
    (reached : Reaches ⟨[], [], text⟩ ⟨[], found.reverse, []⟩) : scan? text = some found := by
  obtain ⟨bound, enough, same⟩ := reached _ (Nat.lt_succ_self _)
  rw [scan?, noMark]
  cases bound with
  | zero => exact absurd enough (Nat.not_lt_zero _)
  | succ bound => simpa [scanFrom] using same

/-! ## Spelled texts -/

variable {marks : List Mark}

theorem Spells.head (h : Spells marks (c :: rest)) :
    c = ' ' ∨ isNameContinue c ∨ IsSign c ∨ c = '\'' ∨ c ∈ "()[]\x7b\x7d".toList := by
  generalize whole : c :: rest = text at h
  cases h with
  | nil => cases whole
  | blank =>
    cases whole
    exact .inl rfl
  | word isName =>
    obtain ⟨first, others, split, continues, _⟩ := isName_head isName
    rw [split] at whole
    cases whole
    exact .inr (.inl continues)
  | sign isSign =>
    cases whole
    exact .inr (.inr (.inl isSign))
  | lifetime =>
    cases whole
    exact .inr (.inr (.inr (.inl rfl)))
  | opening d =>
    cases whole
    exact .inr (.inr (.inr (.inr (by cases d <;> decide))))
  | closing d =>
    cases whole
    exact .inr (.inr (.inr (.inr (by cases d <;> decide))))

/-- No comment starts in a spelled text. -/
theorem Spells.no_slash (h : Spells marks text) : text.head? ≠ some '/' := by
  cases text with
  | nil => nofun
  | cons c rest =>
    rintro ⟨⟩
    exact absurd h.head (by decide)

theorem Spells.dropOrderMark (h : Spells marks text) : dropOrderMark text = text := by
  refine dropOrderMark_eq fun first => ?_
  obtain ⟨rest, rfl⟩ := List.head?_eq_some_iff.mp first
  exact absurd h.head (by decide +kernel)

theorem Spells.reaches_end (h : Spells [] text) :
    Reaches ⟨groups, read, text⟩ ⟨groups, read, []⟩ := by
  generalize none : [] = marks at h
  induction h with
  | nil => exact .refl
  | blank _ ih => exact reaches_blank.trans (ih none)
  | _ => cases none

theorem Spells.reaches_word (h : Spells (.word name :: marks) text) :
    ∃ rest, Spells marks rest ∧
      ∀ groups read, Reaches ⟨groups, read, text⟩ ⟨groups, .ident name :: read, rest⟩ := by
  generalize all : Mark.word name :: marks = whole at h
  induction h with
  | blank _ ih =>
    obtain ⟨rest, spelled, reached⟩ := ih all
    exact ⟨rest, spelled, fun _ _ => reaches_blank.trans (reached _ _)⟩
  | word isName ends spelled =>
    cases all
    exact ⟨_, spelled, fun _ _ => reaches_name isName ends⟩
  | _ => cases all

theorem Spells.reaches_sign {joint : Bool} (h : Spells (.sign c joint :: marks) text) :
    ∃ rest, ∃ joint' : Bool, (joint → joint') ∧ Spells marks rest ∧ ∀ groups read,
      Reaches ⟨groups, read, text⟩ ⟨groups, .punct c joint' :: read, rest⟩ := by
  generalize all : Mark.sign c joint :: marks = whole at h
  induction h with
  | blank _ ih =>
    obtain ⟨rest, joint', kept, spelled, reached⟩ := ih all
    exact ⟨rest, joint', kept, spelled, fun _ _ => reaches_blank.trans (reached _ _)⟩
  | @sign _ _ _ text isSign joined spelled =>
    cases all
    refine ⟨text, startsPunctuation text, fun together => ?_, spelled,
      fun _ _ => Source.reaches_sign isSign⟩
    obtain ⟨next, head, isSign'⟩ := joined together
    obtain ⟨behind, rfl⟩ := List.head?_eq_some_iff.mp head
    exact isSign'.startsPunctuation
  | _ => cases all

theorem Spells.reaches_lifetime (h : Spells (.quote :: .word name :: marks) text) :
    ∃ rest, Spells marks rest ∧ ∀ groups read, Reaches ⟨groups, read, text⟩
      ⟨groups, .ident name :: .punct '\'' true :: read, rest⟩ := by
  generalize all : Mark.quote :: .word name :: marks = whole at h
  induction h with
  | blank _ ih =>
    obtain ⟨rest, spelled, reached⟩ := ih all
    exact ⟨rest, spelled, fun _ _ => reaches_blank.trans (reached _ _)⟩
  | lifetime isName ends spelled =>
    cases all
    exact ⟨_, spelled, fun _ _ => (reaches_quote isName ends).trans (reaches_name isName ends)⟩
  | _ => cases all

theorem Spells.reaches_inside (h : Spells (.opening d :: marks) text) :
    ∃ rest, Spells marks rest ∧
      ∀ groups read, Reaches ⟨groups, read, text⟩ ⟨(d, read) :: groups, [], rest⟩ := by
  generalize all : Mark.opening d :: marks = whole at h
  induction h with
  | blank _ ih =>
    obtain ⟨rest, spelled, reached⟩ := ih all
    exact ⟨rest, spelled, fun _ _ => reaches_blank.trans (reached _ _)⟩
  | @opening _ _ text spelled =>
    cases all
    have noMark : errorMark.isPrefixOf (d.opening :: text) = false :=
      not_errorMark fun behind same => spelled.no_slash (by rw [(List.cons.inj same).2]; rfl)
    exact ⟨_, spelled, fun _ _ => reaches_opening noMark⟩
  | _ => cases all

theorem Spells.reaches_behind (h : Spells (.closing d :: marks) text) :
    ∃ rest, Spells marks rest ∧ ∀ groups before read,
      Reaches ⟨(d, before) :: groups, read, text⟩
        ⟨groups, .group d read.reverse :: before, rest⟩ := by
  generalize all : Mark.closing d :: marks = whole at h
  induction h with
  | blank _ ih =>
    obtain ⟨rest, spelled, reached⟩ := ih all
    exact ⟨rest, spelled, fun _ _ _ => reaches_blank.trans (reached _ _ _)⟩
  | closing _ spelled =>
    cases all
    exact ⟨_, spelled, fun _ _ _ => reaches_closing⟩
  | _ => cases all

/-- Where a text goes on with some tokens, a scan reads them, if more of their characters may be
joint than were. -/
theorem Legible.reaches {tokens : List Token} (h : Legible tokens) {marks : List Mark}
    {text : List Char} (spelled : Spells (marksOf tokens ++ marks) text) :
    ∃ found rest, List.Forall₂ Token.Tighter tokens found ∧ Spells marks rest ∧
      ∀ groups read, Reaches ⟨groups, read, text⟩ ⟨groups, found.reverse ++ read, rest⟩ := by
  induction h generalizing marks text with
  | nil => exact ⟨[], text, .nil, spelled, fun _ _ => .refl⟩
  | @ident name tokens _ _ ih =>
    obtain ⟨behind, spelled, first⟩ := Spells.reaches_word spelled
    obtain ⟨found, rest, tighter, spelled, reached⟩ := ih spelled
    refine ⟨.ident name :: found, rest, .cons (.ident name) tighter, spelled, fun groups read => ?_⟩
    simpa using (first groups read).trans (reached groups _)
  | @sign c tokens isSign _ ih =>
    rw [marksOf_punct _ isSign.2.2] at spelled
    obtain ⟨behind, joint', kept, spelled, first⟩ := Spells.reaches_sign spelled
    obtain ⟨found, rest, tighter, spelled, reached⟩ := ih spelled
    refine ⟨.punct c joint' :: found, rest, .cons (.punct c kept) tighter, spelled,
      fun groups read => ?_⟩
    simpa using (first groups read).trans (reached groups _)
  | @joint c c' other tokens isSign _ _ ih =>
    rw [marksOf_punct _ isSign.2.2] at spelled
    obtain ⟨behind, joint', kept, spelled, first⟩ := Spells.reaches_sign spelled
    obtain ⟨found, rest, tighter, spelled, reached⟩ := ih spelled
    refine ⟨.punct c joint' :: found, rest, .cons (.punct c kept) tighter, spelled,
      fun groups read => ?_⟩
    simpa using (first groups read).trans (reached groups _)
  | @lifetime name tokens _ _ ih =>
    obtain ⟨behind, spelled, first⟩ := Spells.reaches_lifetime spelled
    obtain ⟨found, rest, tighter, spelled, reached⟩ := ih spelled
    refine ⟨.punct '\'' true :: .ident name :: found, rest,
      .cons (.punct '\'' id) (.cons (.ident name) tighter), spelled, fun groups read => ?_⟩
    simpa using (first groups read).trans (reached groups _)
  | @group d content tokens _ _ ihContent ihRest =>
    rw [marksOf_group, List.cons_append, List.append_assoc, List.cons_append] at spelled
    obtain ⟨_, spelled, opened⟩ := Spells.reaches_inside spelled
    obtain ⟨inside, _, tighterInside, spelled, within⟩ := ihContent spelled
    obtain ⟨_, spelled, closed⟩ := Spells.reaches_behind spelled
    obtain ⟨found, rest, tighter, spelled, reached⟩ := ihRest spelled
    refine ⟨.group d inside :: found, rest, .cons (.group d tighterInside) tighter, spelled,
      fun groups read => ?_⟩
    have group := (within ((d, read) :: groups) []).trans (closed groups read _)
    rw [List.append_nil, List.reverse_reverse] at group
    simpa using ((opened groups read).trans group).trans (reached groups _)

/-- Tokens are found in every text that spells them. -/
theorem scan?_spelled {tokens : List Token} (h : Legible tokens)
    (spelled : Spells (marksOf tokens) text) :
    ∃ found, scan? text = some found ∧ List.Forall₂ Token.Tighter tokens found := by
  have whole := spelled
  rw [← List.append_nil (marksOf tokens)] at whole
  obtain ⟨found, rest, tighter, behind, reached⟩ := h.reaches whole
  have all := (reached [] []).trans behind.reaches_end
  rw [List.append_nil] at all
  exact ⟨found, scan?_of_reaches spelled.dropOrderMark all, tighter⟩

/-- Tokens that are written are found again. -/
theorem scan?_written {tokens : List Token} (h : Legible tokens) :
    ∃ found, scan? (written tokens).toList = some found ∧
      List.Forall₂ Token.Tighter tokens found := by
  refine scan?_spelled h (written_induction (P := Spells (marksOf tokens))
    (fun closes spelled => spelled.closes closes) ?_)
  simpa using h.spells .nil (by simp [EndsWord])

end MiddlewareStack.Source
