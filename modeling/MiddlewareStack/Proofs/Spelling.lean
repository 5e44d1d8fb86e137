import Mathlib.Data.Bool.AllAny
import MiddlewareStack.Proofs.Names
import MiddlewareStack.Source.CommaList
import MiddlewareStack.Source.Spacing

/-!
# Texts of tokens

A text spells some tokens if it has them one after another, with blanks between them wherever it
likes but where two would run together. The spacing of written types only removes blanks beside
separating characters, so that a written text still spells its tokens, and a scan finds them again.
Characters that stand together may come to be joint that were not.
-/

namespace MiddlewareStack.Source

/-! ## Texts and tokens -/

/-- A punctuation character that starts neither a comment nor a lifetime. -/
def IsSign (c : Char) : Prop :=
  isPunctuation c ∧ c ≠ '/' ∧ c ≠ '\''

instance (c : Char) : Decidable (IsSign c) := inferInstanceAs (Decidable (_ ∧ _))

/-- What a text is made of, delimiters apart. -/
inductive Mark where
  | word (name : String)
  | sign (char : Char) (joint : Bool)
  /-- The quote of a lifetime. -/
  | quote
  | opening (delimiter : Delimiter)
  | closing (delimiter : Delimiter)

/-- A name before this text ends there, and is not the start of a literal. -/
def EndsWord (text : List Char) : Prop :=
  ∀ c ∈ text.head?, isNameContinue c = false ∧ c ≠ '"' ∧ c ≠ '#' ∧ c ≠ '\''

/-- A text in which some marks stand one after another, with blanks between them. -/
inductive Spells : List Mark → List Char → Prop
  | nil : Spells [] []
  | blank {marks : List Mark} {text : List Char} (rest : Spells marks text) :
    Spells marks (' ' :: text)
  | word {name : String} {marks : List Mark} {text : List Char} (isName : IsName name)
      (ends : EndsWord text) (rest : Spells marks text) :
    Spells (.word name :: marks) (name.toList ++ text)
  | sign {c : Char} {joint : Bool} {marks : List Mark} {text : List Char} (isSign : IsSign c)
      (joined : joint → ∃ c ∈ text.head?, IsSign c) (rest : Spells marks text) :
    Spells (.sign c joint :: marks) (c :: text)
  | lifetime {name : String} {marks : List Mark} {text : List Char} (isName : IsName name)
      (ends : EndsWord text) (rest : Spells marks text) :
    Spells (.quote :: .word name :: marks) ('\'' :: (name.toList ++ text))
  | opening (d : Delimiter) {marks : List Mark} {text : List Char} (rest : Spells marks text) :
    Spells (.opening d :: marks) (d.opening :: text)
  | closing (d : Delimiter) {marks : List Mark} {text : List Char} (rest : Spells marks text) :
    Spells (.closing d :: marks) (d.closing :: text)

mutual

/-- The marks of a token. There are none of a literal. -/
def Token.marks : Token → List Mark
  | .ident name => [.word name]
  | .punct c joint => [if c = '\'' then .quote else .sign c joint]
  | .literal _ => []
  | .group d content => .opening d :: (marksOf content ++ [.closing d])

def marksOf : List Token → List Mark
  | [] => []
  | first :: rest => first.marks ++ marksOf rest

end

theorem marksOf_punct {c : Char} (joint : Bool) (noQuote : c ≠ '\'') (rest : List Token) :
    marksOf (.punct c joint :: rest) = .sign c joint :: marksOf rest := by
  simp [marksOf, Token.marks, noQuote]

theorem marksOf_group (d : Delimiter) (content rest : List Token) :
    marksOf (.group d content :: rest) =
      .opening d :: (marksOf content ++ .closing d :: marksOf rest) := by
  simp [marksOf, Token.marks]

/-- Tokens that can be told apart when they are written: no literals, no slashes, a joint sign only
before another sign, and a quote only before the name of its lifetime. -/
inductive Legible : List Token → Prop
  | nil : Legible []
  | ident {name : String} {rest : List Token} (isName : IsName name) (others : Legible rest) :
    Legible (.ident name :: rest)
  | sign {c : Char} {rest : List Token} (isSign : IsSign c) (others : Legible rest) :
    Legible (.punct c false :: rest)
  | joint {c c' : Char} {joint' : Bool} {rest : List Token} (isSign : IsSign c)
      (isSign' : IsSign c') (others : Legible (.punct c' joint' :: rest)) :
    Legible (.punct c true :: .punct c' joint' :: rest)
  | lifetime {name : String} {rest : List Token} (isName : IsName name) (others : Legible rest) :
    Legible (.punct '\'' true :: .ident name :: rest)
  | group (d : Delimiter) {content rest : List Token} (inside : Legible content)
      (others : Legible rest) : Legible (.group d content :: rest)

theorem operator_less : Token.operator "<" = [.punct '<' false] := rfl

theorem operator_greater : Token.operator ">" = [.punct '>' false] := rfl

theorem operator_borrow : Token.operator "&" = [.punct '&' false] := rfl

theorem operator_colon : Token.operator ":" = [.punct ':' false] := rfl

theorem operator_arrow : Token.operator "->" = [.punct '-' true, .punct '>' false] := rfl

theorem operator_separator : Token.operator "::" = [.punct ':' true, .punct ':' false] := rfl

theorem comma_eq : comma = [.punct ',' false] := rfl

/-! ## Spacing -/

/-- The characters beside which blanks are removed. -/
def closers : List Char :=
  [':', '&', '<', '>', ',', '(', ')']

/-- Blanks beside closers are removed, none or some of them. -/
inductive Closes : List Char → List Char → Prop
  | nil : Closes [] []
  | keep (c : Char) {text text' : List Char} (rest : Closes text text') :
    Closes (c :: text) (c :: text')
  | after {c : Char} {text text' : List Char} (closer : c ∈ closers) (rest : Closes text text') :
    Closes (c :: ' ' :: text) (c :: text')
  | before {c : Char} {text text' : List Char} (closer : c ∈ closers)
      (rest : Closes (c :: text) (c :: text')) : Closes (' ' :: c :: text) (c :: text')

theorem Closes.refl : ∀ text, Closes text text
  | [] => .nil
  | c :: text => .keep c (refl text)

theorem replaceFrom_eq (pattern replacement : List Char) : ∀ (skip : Nat) (text : List Char),
    Text.replaceFrom pattern replacement skip text =
      Text.replaceFrom pattern replacement 0 (text.drop skip)
  | 0, _ => rfl
  | _ + 1, [] => rfl
  | skip + 1, _ :: rest => replaceFrom_eq pattern replacement skip rest

/-- A replacement that closes up its pattern closes up any text. -/
theorem replaceAll_closes {pattern replacement : List Char} (ne : pattern ≠ [])
    (h : ∀ {text text'}, Closes text text' → Closes (pattern ++ text) (replacement ++ text')) :
    ∀ text, Closes text (Text.replaceAll pattern replacement text)
  | [] => .nil
  | c :: rest => by
    unfold Text.replaceAll
    rw [Text.replaceFrom]
    split
    · next found =>
      obtain ⟨tail, split⟩ := List.isPrefixOf_iff_prefix.mp found
      obtain ⟨first, others, rfl⟩ := List.exists_cons_of_ne_nil ne
      obtain ⟨rfl, rfl⟩ := List.cons.inj split
      have ih := replaceAll_closes ne h tail
      rw [replaceFrom_eq]
      simpa [Text.replaceAll] using h ih
    · exact .keep c (replaceAll_closes ne h rest)
  termination_by text => text.length

/-- Every rule of spacing only removes blanks beside closers. -/
theorem spacingRules_close : ∀ rule ∈ spacingRules, ∀ text,
    Closes text (Text.replaceAll rule.1.toList rule.2.toList text) := by
  simp only [spacingRules, List.forall_mem_cons, List.not_mem_nil, false_implies, implies_true,
    and_true]
  refine ⟨?_, ?_, ?_, ?_, ?_, ?_, ?_, ?_, ?_, ?_⟩
  · exact replaceAll_closes (by decide) fun h =>
      .before (by decide) (.keep ':' (.after (by decide) h))
  · exact replaceAll_closes (by decide) fun h => .keep ':' (.after (by decide) h)
  · exact replaceAll_closes (by decide) fun h => .after (by decide) h
  · exact replaceAll_closes (by decide) fun h => .after (by decide) h
  · exact replaceAll_closes (by decide) fun h => .before (by decide) (.keep '<' h)
  · exact replaceAll_closes (by decide) fun h => .before (by decide) (.keep '>' h)
  · exact replaceAll_closes (by decide) fun h => .before (by decide) (.keep ',' h)
  · exact replaceAll_closes (by decide) fun h => .before (by decide) (.keep ':' (.keep ' ' h))
  · exact replaceAll_closes (by decide) fun h => .after (by decide) h
  · exact replaceAll_closes (by decide) fun h => .before (by decide) (.keep ')' h)

theorem attachFrom_closes : ∀ (beforeLast last : Option Char) (text : List Char),
    Closes text (attachFrom beforeLast last text)
  | _, _, [] => .nil
  | beforeLast, last, c :: rest => by
    have ih := attachFrom_closes last (some c) rest
    rw [attachFrom]
    split
    · next attached =>
      simp only [Bool.and_eq_true, beq_iff_eq] at attached
      obtain ⟨⟨rfl, parenthesis⟩, _⟩ := attached
      obtain ⟨behind, rfl⟩ := List.head?_eq_some_iff.mp parenthesis
      exact .before (by decide) ih
    · exact .keep c ih

/-- What holds of a text however blanks beside closers are removed holds of it as written. -/
theorem written_induction {P : List Char → Prop}
    (h : ∀ {text text'}, Closes text text' → P text → P text')
    {tokens : List Token} (holds : P (Token.charsOf tokens)) : P (written tokens).toList := by
  have closed : ∀ (rules : List (String × String)) (text : List Char),
      (∀ rule ∈ rules, ∀ text, Closes text (Text.replaceAll rule.1.toList rule.2.toList text)) →
      P text →
      P (rules.foldl (fun text rule => Text.replaceAll rule.1.toList rule.2.toList text) text) := by
    intro rules
    induction rules with
    | nil => exact fun text _ holds => holds
    | cons rule rules ih =>
      intro text close holds
      obtain ⟨first, others⟩ := List.forall_mem_cons.mp close
      exact ih _ others (h (first text) holds)
  rw [written, String.toList_ofList]
  exact h (attachFrom_closes none none _) (closed _ _ spacingRules_close holds)

/-! ## What is written spells its tokens -/

variable {marks : List Mark} {text text' : List Char} {c : Char}

theorem not_isNameContinue_of_closer (h : c ∈ closers) : isNameContinue c = false := by
  have all : ∀ c ∈ closers, isNameContinue c = false := List.all_iff_forall_prop.mp (by decide)
  exact all c h

theorem endsWord_of_closer (h : c ∈ closers) : EndsWord (c :: text) := by
  have all : ∀ c ∈ closers, c ≠ '"' ∧ c ≠ '#' ∧ c ≠ '\'' := List.all_iff_forall_prop.mp (by decide)
  rintro _ ⟨⟩
  exact ⟨not_isNameContinue_of_closer h, all c h⟩

theorem endsWord_blank : EndsWord (' ' :: text) := by
  rintro _ ⟨⟩
  decide

/-- The first character stays, unless it is a blank before a closer. -/
theorem Closes.head (h : Closes (c :: text) text') :
    (∃ behind, text' = c :: behind) ∨ c = ' ' ∧ ∃ closer behind, closer ∈ closers ∧
      text' = closer :: behind := by
  cases h with
  | keep => exact .inl ⟨_, rfl⟩
  | after => exact .inl ⟨_, rfl⟩
  | before closer => exact .inr ⟨rfl, _, _, closer, rfl⟩

theorem Closes.endsWord (h : Closes text text') (ends : EndsWord text) : EndsWord text' := by
  cases text with
  | nil =>
    cases h
    exact ends
  | cons c rest =>
    rcases h.head with ⟨behind, rfl⟩ | ⟨_, closer, behind, isCloser, rfl⟩
    · exact ends
    · exact endsWord_of_closer isCloser

/-- Nothing is removed from characters that are neither blanks nor closers. -/
theorem Closes.keep_all {front : List Char} (solid : ∀ c ∈ front, c ≠ ' ' ∧ c ∉ closers)
    (h : Closes (front ++ text) text') :
    ∃ behind, Closes text behind ∧ text' = front ++ behind := by
  induction front generalizing text' with
  | nil => exact ⟨text', h, rfl⟩
  | cons c front ih =>
    obtain ⟨⟨notBlank, notCloser⟩, others⟩ := List.forall_mem_cons.mp solid
    rw [List.cons_append] at h
    generalize whole : front ++ text = all at h
    cases h with
    | keep _ rest =>
      obtain ⟨behind, closes, rfl⟩ := ih others (whole ▸ rest)
      exact ⟨behind, closes, rfl⟩
    | after closer => exact absurd closer notCloser
    | before => exact absurd rfl notBlank

theorem IsName.solid {name : String} (h : IsName name) :
    ∀ c ∈ name.toList, c ≠ ' ' ∧ c ∉ closers := by
  intro c member
  rcases h.chars c member with continues | rfl
  · refine ⟨ne_of_isNameContinue continues (by decide), fun closer => ?_⟩
    rw [not_isNameContinue_of_closer closer] at continues
    cases continues
  · decide

theorem IsName.ne_nil {name : String} (h : IsName name) : name.toList ≠ [] := by
  rcases isName_iff.mp h with ⟨c, rest, text, _⟩ | ⟨plain, _, _, text⟩ <;> simp [text]

/-- A blank at the front of a text is no part of what it spells. -/
theorem Spells.tail_of_blank (h : Spells marks (' ' :: text)) : Spells marks text := by
  generalize whole : ' ' :: text = all at h
  cases h with
  | nil => cases whole
  | blank rest =>
    cases whole
    exact rest
  | @word name _ behind isName =>
    obtain ⟨first, others, split⟩ := List.exists_cons_of_ne_nil isName.ne_nil
    have head : first = ' ' := by
      rw [split] at whole
      cases whole
      rfl
    have solid := (isName.solid first (split ▸ List.mem_cons_self)).1
    exact absurd head solid
  | sign isSign =>
    cases whole
    exact absurd isSign.1 (by decide)
  | lifetime => cases whole
  | opening d => cases d <;> cases whole
  | closing d => cases d <;> cases whole

/-- Removing blanks beside closers changes nothing about the marks. -/
theorem Spells.closes (h : Spells marks text) {text' : List Char} (closes : Closes text text') :
    Spells marks text' := by
  induction h generalizing text' with
  | nil =>
    cases closes
    exact .nil
  | blank _ ih =>
    cases closes with
    | keep _ rest => exact .blank (ih rest)
    | after closer => exact absurd closer (by decide)
    | before _ rest => exact ih rest
  | word isName ends _ ih =>
    obtain ⟨behind, rest, rfl⟩ := closes.keep_all isName.solid
    exact .word isName (rest.endsWord ends) (ih rest)
  | @sign c joint _ text isSign joined _ ih =>
    cases closes with
    | keep _ rest =>
      refine .sign isSign (fun together => ?_) (ih rest)
      obtain ⟨next, head, isSign'⟩ := joined together
      obtain ⟨behind, rfl⟩ := List.head?_eq_some_iff.mp head
      rcases rest.head with ⟨_, rfl⟩ | ⟨rfl, _⟩
      · exact ⟨next, rfl, isSign'⟩
      · exact absurd isSign'.1 (by decide)
    | after _ rest =>
      refine .sign isSign (fun together => ?_) (ih (.keep ' ' rest)).tail_of_blank
      obtain ⟨next, head, isSign'⟩ := joined together
      cases head
      exact absurd isSign'.1 (by decide)
    | before => exact absurd isSign.1 (by decide)
  | @lifetime name _ text isName ends _ ih =>
    have solid : ∀ c ∈ '\'' :: name.toList, c ≠ ' ' ∧ c ∉ closers :=
      List.forall_mem_cons.mpr ⟨by decide, isName.solid⟩
    obtain ⟨behind, rest, rfl⟩ := Closes.keep_all solid closes
    exact .lifetime isName (rest.endsWord ends) (ih rest)
  | opening d _ ih =>
    generalize first : d.opening = c at closes ⊢
    cases closes with
    | keep _ rest => exact first ▸ .opening d (ih rest)
    | after _ rest => exact first ▸ .opening d (ih (.keep ' ' rest)).tail_of_blank
    | before => cases d <;> cases first
  | closing d _ ih =>
    generalize first : d.closing = c at closes ⊢
    cases closes with
    | keep _ rest => exact first ▸ .closing d (ih rest)
    | after _ rest => exact first ▸ .closing d (ih (.keep ' ' rest)).tail_of_blank
    | before => cases d <;> cases first

theorem endsWord_closing (d : Delimiter) : EndsWord (d.closing :: text) := by
  rintro _ ⟨⟩
  cases d <;> decide

/-- Between two tokens a blank stands, or nothing where the first is joint or the last. -/
theorem charsOf_cons (first : Token) (rest : List Token) :
    (Token.charsOf (first :: rest) = Token.chars first ++ Token.charsOf rest ∧
      (rest = [] ∨ first.isJoint)) ∨
    Token.charsOf (first :: rest) = Token.chars first ++ ' ' :: Token.charsOf rest ∧
      first.isJoint = false := by
  rw [Token.charsOf]
  split
  · next together => simpa using together
  · next apart =>
    simp only [Bool.or_eq_true, not_or, Bool.not_eq_true] at apart
    exact .inr ⟨rfl, apart.2⟩

theorem spells_surround (d : Delimiter) {content : List Char} {inside : List Mark}
    (h : ∀ {text}, Spells (.closing d :: marks) text → EndsWord text →
      Spells (inside ++ .closing d :: marks) (content ++ text)) (rest : Spells marks text) :
    Spells (.opening d :: (inside ++ .closing d :: marks)) (d.surround content ++ text) := by
  have closed : Spells (.closing d :: marks) (d.closing :: text) := .closing d rest
  have spelled := h closed (endsWord_closing d)
  have padded := h (.blank closed) endsWord_blank
  cases d with
  | brace =>
    simp only [Delimiter.surround]
    split
    · next empty =>
      obtain rfl := List.isEmpty_iff.mp empty
      exact .opening .brace (.blank spelled)
    · have text' : '{' :: ' ' :: content ++ [' ', '}'] ++ text =
          '{' :: ' ' :: (content ++ ' ' :: '}' :: text) := by simp
      rw [text']
      exact .opening .brace (.blank padded)
  | parenthesis =>
    have text' :
        Delimiter.parenthesis.surround content ++ text = '(' :: (content ++ ')' :: text) := by
      simp [Delimiter.surround, Delimiter.opening, Delimiter.closing]
    rw [text']
    exact .opening .parenthesis spelled
  | bracket =>
    have text' : Delimiter.bracket.surround content ++ text = '[' :: (content ++ ']' :: text) := by
      simp [Delimiter.surround, Delimiter.opening, Delimiter.closing]
    rw [text']
    exact .opening .bracket spelled

/-- Tokens that are one blank apart are spelled so, whatever ends the last of them. -/
theorem Legible.spells {tokens : List Token} (h : Legible tokens) {marks : List Mark}
    {text : List Char} (behind : Spells marks text) (ends : EndsWord text) :
    Spells (marksOf tokens ++ marks) (Token.charsOf tokens ++ text) := by
  induction h generalizing marks text with
  | nil => exact behind
  | @ident name rest isName _ ih =>
    have others := ih behind ends
    rcases charsOf_cons (.ident name) rest with ⟨chars, rfl | joint⟩ | ⟨chars, _⟩
    · rw [chars, List.append_assoc]
      exact .word isName ends others
    · cases joint
    · rw [chars, List.append_assoc]
      exact .word isName endsWord_blank (.blank others)
  | @sign c rest isSign _ ih =>
    have others := ih behind ends
    rw [marksOf_punct _ isSign.2.2]
    rcases charsOf_cons (.punct c false) rest with ⟨chars, _⟩ | ⟨chars, _⟩
    · rw [chars]
      exact .sign isSign nofun others
    · rw [chars]
      exact .sign isSign nofun (.blank others)
  | @joint c c' joint' rest isSign isSign' _ ih =>
    have others := ih behind ends
    rw [marksOf_punct _ isSign.2.2]
    rcases charsOf_cons (.punct c true) (.punct c' joint' :: rest) with ⟨chars, _⟩ | ⟨_, apart⟩
    · rw [chars]
      refine .sign isSign (fun _ => ⟨c', ?_, isSign'⟩) others
      rcases charsOf_cons (.punct c' joint') rest with ⟨chars, _⟩ | ⟨chars, _⟩ <;>
        rw [chars] <;> rfl
    · cases apart
  | @lifetime name rest isName _ ih =>
    have others := ih behind ends
    have quote : Token.charsOf (.punct '\'' true :: .ident name :: rest) =
        '\'' :: Token.charsOf (.ident name :: rest) := by
      rw [Token.charsOf, if_pos (by rfl)]
      rfl
    rw [quote]
    rcases charsOf_cons (.ident name) rest with ⟨chars, rfl | joint⟩ | ⟨chars, _⟩
    · rw [chars, List.cons_append, List.append_assoc]
      exact .lifetime isName ends others
    · cases joint
    · rw [chars, List.cons_append, List.append_assoc]
      exact .lifetime isName endsWord_blank (.blank others)
  | @group d content rest _ _ ihContent ihRest =>
    have others := ihRest behind ends
    rw [marksOf_group, List.cons_append, List.append_assoc, List.cons_append]
    rcases charsOf_cons (.group d content) rest with ⟨chars, _⟩ | ⟨chars, _⟩
    · rw [chars, List.append_assoc]
      exact spells_surround d ihContent others
    · rw [chars, List.append_assoc]
      exact spells_surround d ihContent (.blank others)

end MiddlewareStack.Source
