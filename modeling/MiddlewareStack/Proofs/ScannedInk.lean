import MiddlewareStack.Proofs.WrittenCharacters

/-!
# What a scan leaves out

A scan takes the characters of a text one token after another. Where it finds no literal, every
character but a blank is one of the tokens, unless it belongs to a comment (`scanFrom_ink`). Tokens
that have as many characters as the text in which they are found are therefore found without any
comment: none starts in this text (`noComment_of_scan?`).
-/

namespace MiddlewareStack.Source

/-! ## Comments -/

/-- A comment starts at the front of this text, whether it ends or not. -/
def StartsComment (text : List Char) : Prop :=
  ['/', '/'] <+: text ∨ ['/', '*'] <+: text

/-- No comment starts anywhere in this text. -/
def NoComment (text : List Char) : Prop :=
  ¬['/', '/'] <:+: text ∧ ¬['/', '*'] <:+: text

instance (text : List Char) : Decidable (NoComment text) :=
  inferInstanceAs (Decidable (_ ∧ _))

variable {c : Char} {cs front text rest : List Char} {token : Token}
  {tokens found read : List Token} {groups : OpenGroups} {d : Delimiter}

theorem noComment_cons : NoComment (c :: text) ↔ ¬StartsComment (c :: text) ∧ NoComment text := by
  simp only [NoComment, StartsComment, List.infix_cons_iff, not_or]
  exact and_and_and_comm

theorem noComment_nil : NoComment [] := by
  simp [NoComment]

theorem not_startsComment (noSlash : c ≠ '/') : ¬StartsComment (c :: text) := by
  simp [StartsComment, noSlash.symm]

theorem noComment_append (noSlash : '/' ∉ front) (behind : NoComment text) :
    NoComment (front ++ text) := by
  induction front with
  | nil => exact behind
  | cons c front ih =>
    rw [List.mem_cons, not_or] at noSlash
    exact noComment_cons.mpr ⟨not_startsComment (Ne.symm noSlash.1), ih noSlash.2⟩

theorem NoComment.of_suffix (h : NoComment text) (part : rest <:+ text) : NoComment rest :=
  ⟨fun within => h.1 (within.trans part.isInfix), fun within => h.2 (within.trans part.isInfix)⟩

theorem comment?_eq_none_of_not_starts (h : ¬StartsComment text) : comment? text = none := by
  unfold comment?
  split
  · exact absurd (.inl ⟨_, rfl⟩) h
  · exact absurd (.inr ⟨_, rfl⟩) h
  · rfl

theorem not_startsComment_of_startsPunctuation (h : startsPunctuation text) :
    ¬StartsComment text := by
  rintro (⟨behind, rfl⟩ | ⟨behind, rfl⟩) <;> cases h

theorem splitLine_suffix (text : List Char) : (splitLine text).2 <:+ text := by
  fun_induction splitLine text with
  | case1 => exact List.suffix_refl _
  | case2 c rest => exact List.suffix_refl _
  | case3 c rest => exact List.suffix_cons c rest
  | case4 c rest _ _ line behind split ih =>
    rw [split] at ih
    exact ih.trans (List.suffix_cons c rest)

theorem splitBlock_suffix {depth : Nat} {inside : List Char}
    (h : splitBlock depth text = some (inside, rest)) : rest <:+ text := by
  fun_induction splitBlock depth text generalizing inside with
  | case1 depth text ih =>
    obtain ⟨⟨_, _⟩, found, same⟩ := Option.map_eq_some_iff.mp h
    cases same
    exact (ih found).trans ⟨['/', '*'], rfl⟩
  | case2 text =>
    cases h
    exact ⟨['*', '/'], rfl⟩
  | case3 text depth ih =>
    obtain ⟨⟨_, _⟩, found, same⟩ := Option.map_eq_some_iff.mp h
    cases same
    exact (ih found).trans ⟨['*', '/'], rfl⟩
  | case4 depth c text _ _ ih =>
    obtain ⟨⟨_, _⟩, found, same⟩ := Option.map_eq_some_iff.mp h
    cases same
    exact (ih found).trans (List.suffix_cons c text)
  | case5 => cases h

/-- A comment has two characters in front, none of them a blank. -/
theorem comment?_rest {comment : Comment} (h : comment? cs = some (comment, rest)) :
    ∃ mark behind, cs = '/' :: mark :: behind ∧ mark ≠ ' ' ∧ rest <:+ behind := by
  unfold comment? at h
  split at h
  · next behind =>
    refine ⟨'/', behind, rfl, by decide, ?_⟩
    split at h <;> cases h
    · exact splitLine_suffix _
    · exact (splitLine_suffix _).trans (List.suffix_cons _ _)
    · exact (splitLine_suffix _).trans (List.suffix_cons _ _)
    · exact splitLine_suffix _
  · next behind =>
    refine ⟨'*', behind, rfl, by decide, ?_⟩
    split at h
    · cases h
      exact ⟨['*', '/'], rfl⟩
    all_goals
      obtain ⟨⟨_, _⟩, found, same⟩ := Option.map_eq_some_iff.mp h
      cases same
    · exact splitBlock_suffix found
    · exact (splitBlock_suffix found).trans (List.suffix_cons _ _)
    · exact (splitBlock_suffix found).trans (List.suffix_cons _ _)
    · exact splitBlock_suffix found
  · cases h

theorem ink_le_of_suffix (h : rest <:+ text) : ink rest ≤ ink text :=
  h.sublist.countP_le

theorem ink_lt_of_comment? {comment : Comment} (h : comment? cs = some (comment, rest)) :
    ink rest < ink cs := by
  obtain ⟨mark, behind, rfl, solid, suffix⟩ := comment?_rest h
  have fewer := ink_le_of_suffix suffix
  rw [ink_cons, ink_cons mark]
  have slash : ink ['/'] = 1 := rfl
  omega

/-! ## Single tokens -/

mutual

/-- Neither the token nor one inside it is a literal. -/
def Token.literalFree : Token → Bool
  | .literal _ => false
  | .group _ content => allLiteralFree content
  | _ => true

def allLiteralFree : List Token → Bool
  | [] => true
  | first :: rest => first.literalFree && allLiteralFree rest

end

theorem allLiteralFree_eq_all (tokens : List Token) :
    allLiteralFree tokens = tokens.all Token.literalFree := by
  induction tokens with
  | nil => rfl
  | cons first rest ih => rw [allLiteralFree, ih, List.all_cons]

@[simp] theorem allLiteralFree_append (tokens tokens' : List Token) :
    allLiteralFree (tokens ++ tokens') = (allLiteralFree tokens && allLiteralFree tokens') := by
  simp [allLiteralFree_eq_all]

@[simp] theorem allLiteralFree_reverse (tokens : List Token) :
    allLiteralFree tokens.reverse = allLiteralFree tokens := by
  simp [allLiteralFree_eq_all]

theorem quote?_eq_some (h : quote? rest = some token) : token = .punct '\'' true := by
  unfold quote? at h
  split at h
  · cases h
  · split at h
    · cases h
    · split at h <;> cases h
      rfl
    · cases h
      rfl

/-- What is read as a sign is one, and stands at the front. -/
theorem punctuation?_eq_some (h : punctuation? cs = some (token, rest)) :
    ∃ c joint, token = .punct c joint ∧ cs = c :: rest ∧ startsPunctuation cs := by
  unfold punctuation? at h
  split at h
  · cases h
  · next c behind =>
    split at h
    · cases h
    · next starts =>
      have isPunct : startsPunctuation (c :: behind) := by simpa using starts
      split at h
      · next isQuote =>
        obtain ⟨quote, found, same⟩ := Option.map_eq_some_iff.mp h
        cases same
        obtain rfl := beq_iff_eq.mp isQuote
        exact ⟨_, _, quote?_eq_some found, rfl, isPunct⟩
      · cases h
        exact ⟨c, _, rfl, rfl, isPunct⟩

/-- A token is a literal, or it is written at the front as it is, and no comment starts in it. -/
theorem leaf?_literal_or (h : leaf? cs = some (token, rest)) :
    token.literalFree = false ∨ ink cs = ink token.chars + ink rest ∧
      (NoComment rest → NoComment cs) := by
  unfold leaf? at h
  split at h
  · cases h
    exact .inl rfl
  · refine .inr ?_
    split at h
    · next found isPunct =>
      cases h
      obtain ⟨c, joint, rfl, rfl, starts⟩ := punctuation?_eq_some isPunct
      refine ⟨?_, fun behind => noComment_cons.mpr
        ⟨not_startsComment_of_startsPunctuation starts, behind⟩⟩
      rw [Token.chars, ← ink_cons]
    · split at h
      · cases h
      · obtain ⟨⟨name, behind⟩, found, same⟩ := Option.map_eq_some_iff.mp h
        cases same
        obtain ⟨isName, rfl, _⟩ := name?_eq_some found
        rw [Token.chars]
        exact ⟨ink_append _ _, noComment_append (isName.not_mem (by decide) (by decide))⟩

theorem docAttribute_literal (inner : Bool) (text : List Char) :
    allLiteralFree (docAttribute inner text) = false := by
  cases inner <;> rfl

theorem ofOpening?_eq_some (h : Delimiter.ofOpening? c = some d) : c = d.opening := by
  unfold Delimiter.ofOpening? at h
  split at h <;> cases h <;> rfl

theorem ofClosing?_eq_some (h : Delimiter.ofClosing? c = some d) : c = d.closing := by
  unfold Delimiter.ofClosing? at h
  split at h <;> cases h <;> rfl

/-- How the characters of a lexeme are those of the text. -/
theorem lexeme?_tokens (h : lexeme? cs = some (.tokens tokens, rest)) :
    allLiteralFree tokens = false ∨ ink cs = inkOf tokens + ink rest ∧
      (NoComment rest → NoComment cs) := by
  have ofLeaf : (leaf? cs).map (fun found => (Lexeme.tokens [found.1], found.2)) =
      some (.tokens tokens, rest) → allLiteralFree tokens = false ∨
        ink cs = inkOf tokens + ink rest ∧ (NoComment rest → NoComment cs) := by
    intro mapped
    obtain ⟨⟨token, behind⟩, read, same⟩ := Option.map_eq_some_iff.mp mapped
    cases same
    rw [allLiteralFree, inkOf_cons, inkOf_nil, allLiteralFree, Bool.and_true, Nat.add_zero]
    exact leaf?_literal_or read
  unfold lexeme? at h
  split at h
  · split at h
    · cases h
      exact .inl (docAttribute_literal _ _)
    · cases h
  · split at h
    · cases h
    · split at h
      · split at h
        · exact ofLeaf h
        · cases h
      · cases h
      · exact ofLeaf h

theorem lexeme?_opening (h : lexeme? cs = some (.opening d, rest)) : cs = d.opening :: rest := by
  unfold lexeme? at h
  split at h
  · split at h <;> cases h
  · split at h
    · cases h
    · split at h
      · next opens =>
        split at h
        · obtain ⟨_, _, same⟩ := Option.map_eq_some_iff.mp h
          cases same
        · cases h
          rw [ofOpening?_eq_some opens]
      · cases h
      · obtain ⟨_, _, same⟩ := Option.map_eq_some_iff.mp h
        cases same

theorem lexeme?_closing (h : lexeme? cs = some (.closing d, rest)) : cs = d.closing :: rest := by
  unfold lexeme? at h
  split at h
  · split at h <;> cases h
  · split at h
    · cases h
    · split at h
      · split at h
        · obtain ⟨_, _, same⟩ := Option.map_eq_some_iff.mp h
          cases same
        · cases h
      · next closes _ =>
        cases h
        rw [ofClosing?_eq_some closes]
      · obtain ⟨_, _, same⟩ := Option.map_eq_some_iff.mp h
        cases same

/-! ## Whole scans -/

/-- The characters of what stands before open groups, with the delimiters that open them. -/
def inkOfGroups : OpenGroups → Nat
  | [] => 0
  | (_, before) :: groups => inkOf before + 1 + inkOfGroups groups

/-- A delimiter is one character, and starts no comment. -/
theorem ink_delimiter (isDelimiter : c = d.opening ∨ c = d.closing) (text : List Char) :
    ink (c :: text) = ink text + 1 ∧ (NoComment text → NoComment (c :: text)) := by
  have solid : ink [c] = 1 ∧ c ≠ '/' := by
    rcases isDelimiter with rfl | rfl <;> cases d <;> decide
  rw [ink_cons, solid.1, Nat.add_comm]
  exact ⟨rfl, fun behind => noComment_cons.mpr ⟨not_startsComment solid.2, behind⟩⟩

/-- A scan that finds no literal has read none so far. It finds at most the characters that were
read or are left, and all of them only where no comment starts. -/
theorem scanFrom_ink {bound : Nat} (h : scanFrom bound groups read cs = some found)
    (free : allLiteralFree found) :
    (allLiteralFree read ∧ ∀ group ∈ groups, allLiteralFree group.2) ∧
      inkOf found ≤ inkOfGroups groups + inkOf read + ink cs ∧
      (inkOf found = inkOfGroups groups + inkOf read + ink cs → NoComment cs) := by
  fun_induction scanFrom bound groups read cs with
  | case1 | case3 | case6 | case9 | case11 => cases h
  | case2 _ groups read none =>
    cases h
    obtain rfl := List.isEmpty_iff.mp none
    rw [allLiteralFree_reverse] at free
    exact ⟨⟨free, List.forall_mem_nil _⟩, by simp [inkOf_perm read.reverse_perm, inkOfGroups, ink],
      fun _ => noComment_nil⟩
  -- a blank
  | case4 _ groups read c rest blank ih =>
    obtain ⟨before, most, all⟩ := ih h
    have noSlash : c ≠ '/' := by
      rintro rfl
      cases blank
    have fewer := ink_le_of_suffix (List.suffix_cons c rest)
    exact ⟨before, by omega, fun same => noComment_cons.mpr
      ⟨not_startsComment noSlash, all (by omega)⟩⟩
  -- a comment
  | case5 _ groups read c rest _ behind comment ih =>
    obtain ⟨before, most, _⟩ := ih h
    have fewer := ink_lt_of_comment? comment
    exact ⟨before, by omega, fun same => by omega⟩
  -- some tokens
  | case7 _ groups read c rest _ tokens behind lexed _ ih =>
    obtain ⟨⟨free_read, before⟩, most, all⟩ := ih h
    rw [allLiteralFree_append, allLiteralFree_reverse, Bool.and_eq_true] at free_read
    rw [inkOf_append, inkOf_perm tokens.reverse_perm] at most all
    rcases lexeme?_tokens lexed with literal | ⟨same, noComment⟩
    · rw [literal] at free_read
      cases free_read.1
    · exact ⟨⟨free_read.2, before⟩, by omega, fun whole => noComment (all (by omega))⟩
  -- a group opens
  | case8 _ groups read c rest _ d behind lexed _ ih =>
    obtain ⟨⟨_, before⟩, most, all⟩ := ih h
    obtain ⟨rfl, rfl⟩ := List.cons.inj (lexeme?_opening lexed)
    obtain ⟨here, noComment⟩ := ink_delimiter (.inl (Eq.refl d.opening)) rest
    obtain ⟨free_read, others⟩ := List.forall_mem_cons.mp before
    rw [inkOfGroups, inkOf_nil] at most all
    exact ⟨⟨free_read, others⟩, by omega, fun whole => noComment (all (by omega))⟩
  -- a group closes
  | case10 _ read c rest _ behind d before groups _ lexed ih =>
    obtain ⟨⟨free_group, others⟩, most, all⟩ := ih h
    obtain ⟨rfl, rfl⟩ := List.cons.inj (lexeme?_closing lexed)
    obtain ⟨here, noComment⟩ := ink_delimiter (.inr (Eq.refl d.closing)) rest
    simp only [allLiteralFree, Token.literalFree, allLiteralFree_reverse, Bool.and_eq_true]
      at free_group
    rw [inkOf_cons, ink_group, inkOf_perm read.reverse_perm] at most all
    rw [inkOfGroups]
    exact ⟨⟨free_group.1, List.forall_mem_cons.mpr ⟨free_group.2, others⟩⟩, by omega,
      fun whole => noComment (all (by omega))⟩

theorem ink_dropOrderMark (text : List Char) :
    dropOrderMark text = text ∨ ink text = ink (dropOrderMark text) + 1 := by
  unfold dropOrderMark
  split
  · rw [ink_cons, Nat.add_comm]
    exact .inr rfl
  · exact .inl rfl

/-- Where the tokens that are found have all characters of a text, and none is a literal, no comment
starts in the text. -/
theorem noComment_of_scan? (scanned : scan? text = some found) (free : allLiteralFree found)
    (all : ink text ≤ inkOf found) : NoComment text := by
  obtain ⟨_, most, noComment⟩ := scanFrom_ink scanned free
  have none : inkOfGroups [] = 0 := rfl
  rw [none, inkOf_nil] at most noComment
  rcases ink_dropOrderMark text with same | fewer
  · rw [same] at most noComment
    exact noComment (by omega)
  · omega

end MiddlewareStack.Source
