import MiddlewareStack.Proofs.SpacedMarks

/-!
# Spacing that keeps the tokens

The text of some tokens is that of marks, one after another, with blanks between some of them. The
rules of spacing only take such blanks away, and only beside one of the characters that separate
(`Closes.tightened`), so that no two names run together. A scan of what is left finds the tokens
again, but more or fewer of their characters may be joint (`IsStream.reaches`).

A slash needs a look further: with another character it starts a comment. Where the tokens are found
in their own text none starts, as a comment would leave out characters, and no blank is taken away
behind a slash.
-/

namespace MiddlewareStack.Source

/-! ## Tokens apart from what is joint -/

mutual

/-- The token with no character joint. -/
def Token.loose : Token → Token
  | .punct c _ => .punct c false
  | .group d content => .group d (looseAll content)
  | token => token

/-- The tokens with no character joint, not even inside a group. -/
def looseAll : List Token → List Token
  | [] => []
  | first :: rest => first.loose :: looseAll rest

end

/-- These tokens are found in the text, whatever of them is joint. -/
def ReadsBack (text : List Char) (tokens : List Token) : Prop :=
  (scan? text).map looseAll = some (looseAll tokens)

/-- Names, lifetimes, punctuation characters, and groups of such tokens. -/
inductive IsStream : List Token → Prop
  | nil : IsStream []
  | ident {name : String} {rest : List Token} (isName : IsName name) (others : IsStream rest) :
    IsStream (.ident name :: rest)
  | lifetime {name : String} {rest : List Token} (isName : IsName name) (others : IsStream rest) :
    IsStream (.punct '\'' true :: .ident name :: rest)
  | punct {c : Char} {joint : Bool} {rest : List Token} (isPunct : isPunctuation c)
      (noQuote : c ≠ '\'') (others : IsStream rest) : IsStream (.punct c joint :: rest)
  | group (d : Delimiter) {content rest : List Token} (inside : IsStream content)
      (others : IsStream rest) : IsStream (.group d content :: rest)

variable {c : Char} {text : List Char} {tokens read : List Token} {groups : OpenGroups}
  {d : Delimiter} {mark : Mark} {gap : Bool} {gaps rest tail : List (Mark × Bool)}

mutual

theorem Token.ink_loose : ∀ token : Token, ink token.loose.chars = ink token.chars
  | .ident _ | .literal _ => rfl
  | .punct c _ => by rw [Token.loose, Token.chars, Token.chars]
  | .group d content => by rw [Token.loose, ink_group, ink_group, inkOf_looseAll content]

theorem inkOf_looseAll : ∀ tokens, inkOf (looseAll tokens) = inkOf tokens
  | [] => rfl
  | first :: rest => by
    rw [looseAll, inkOf_cons, inkOf_cons, Token.ink_loose first, inkOf_looseAll rest]

end

mutual

theorem Token.literalFree_loose : ∀ token : Token, token.loose.literalFree = token.literalFree
  | .ident _ | .literal _ => rfl
  | .punct c _ => rfl
  | .group d content => by
    rw [Token.loose, Token.literalFree, Token.literalFree, allLiteralFree_looseAll content]

theorem allLiteralFree_looseAll : ∀ tokens, allLiteralFree (looseAll tokens) = allLiteralFree tokens
  | [] => rfl
  | first :: rest => by
    rw [looseAll, allLiteralFree, allLiteralFree, Token.literalFree_loose first,
      allLiteralFree_looseAll rest]

end

theorem IsStream.literalFree (h : IsStream tokens) : allLiteralFree tokens := by
  induction h with
  | nil => rfl
  | ident _ _ ih | lifetime _ _ ih | punct _ _ _ ih =>
    simpa [allLiteralFree, Token.literalFree] using ih
  | group d _ _ ih ih' => simp [allLiteralFree, Token.literalFree, ih, ih']

/-- No comment starts in a text in which the tokens are found that it is the text of. -/
theorem IsStream.noComment (h : IsStream tokens)
    (back : ReadsBack (Token.charsOf tokens) tokens) : NoComment (Token.charsOf tokens) := by
  obtain ⟨found, scanned, same⟩ := Option.map_eq_some_iff.mp back
  have free : allLiteralFree found := by
    rw [← allLiteralFree_looseAll, same, allLiteralFree_looseAll]
    exact h.literalFree
  have all : inkOf found = inkOf tokens := by
    rw [← inkOf_looseAll, same, inkOf_looseAll]
  exact noComment_of_scan? scanned free (Nat.le_of_eq all.symm)

/-! ## Marks of tokens -/

/-- Whether a blank stands behind a token. Behind the last one, `gap` says so. -/
def gapBehind (gap : Bool) (first : Token) (rest : List Token) : Bool :=
  if rest.isEmpty then gap else !first.isJoint

mutual

/-- The marks of a token, with a blank behind the last of them or not. -/
def Token.pieces (gap : Bool) : Token → List (Mark × Bool)
  | .ident name => [(.word name, gap)]
  | .punct c joint => [(if c = '\'' then .quote else .sign c joint, gap)]
  | .literal _ => []
  | .group d content =>
    (.opening d, decide (d = .brace)) ::
      (piecesOf (decide (d = .brace)) content ++ [(.closing d, gap)])

/-- The marks of some tokens, as they stand in the text of the tokens. -/
def piecesOf (gap : Bool) : List Token → List (Mark × Bool)
  | [] => []
  | first :: rest => first.pieces (gapBehind gap first rest) ++ piecesOf gap rest

end

mutual

theorem Token.map_fst_pieces (gap : Bool) :
    ∀ token : Token, (token.pieces gap).map Prod.fst = token.marks
  | .ident _ | .punct _ _ | .literal _ => rfl
  | .group d content => by
    simp [Token.pieces, Token.marks, map_fst_piecesOf _ content]

theorem map_fst_piecesOf (gap : Bool) :
    ∀ tokens, (piecesOf gap tokens).map Prod.fst = marksOf tokens
  | [] => rfl
  | first :: rest => by
    rw [piecesOf, List.map_append, Token.map_fst_pieces _ first, map_fst_piecesOf gap rest, marksOf]

end

theorem charsOf_isEmpty (h : IsStream tokens) :
    (Token.charsOf tokens).isEmpty = tokens.isEmpty := by
  have first : ∀ (token : Token) (rest : List Token), token.chars ≠ [] →
      (Token.charsOf (token :: rest)).isEmpty = false := by
    intro token rest ne
    rcases charsOf_cons token rest with ⟨chars, _⟩ | ⟨chars, _⟩ <;> simp [chars, ne]
  cases h with
  | nil => rfl
  | ident isName => exact first _ _ (by simpa [Token.chars] using isName.ne_nil)
  | lifetime | punct => exact first _ _ (by simp [Token.chars])
  | group d =>
    refine first _ _ ?_
    rw [Token.chars]
    cases d <;> simp [Delimiter.surround]
    split <;> simp

/-- What follows the text of some tokens, behind a blank if there are any. -/
def following (tokens : List Token) (gap : Bool) (text : List Char) : List Char :=
  if tokens.isEmpty then text else spacedFrom gap text

/-- Where the first token has its text, so have all. -/
theorem spaced_piecesOf_cons {first : Token} {tokens : List Token}
    (here : ∀ gap tail,
      spaced (first.pieces gap ++ tail) = first.chars ++ spacedFrom gap (spaced tail))
    (later : ∀ gap tail, spaced (piecesOf gap tokens ++ tail) =
      Token.charsOf tokens ++ following tokens gap (spaced tail)) (gap : Bool)
    (tail : List (Mark × Bool)) :
    spaced (piecesOf gap (first :: tokens) ++ tail) =
      Token.charsOf (first :: tokens) ++ following (first :: tokens) gap (spaced tail) := by
  rw [piecesOf, List.append_assoc, here, later]
  cases tokens with
  | nil => simp [Token.charsOf, following, gapBehind]
  | cons second others =>
    have text : Token.charsOf (first :: second :: others) =
        first.chars ++ spacedFrom (!first.isJoint) (Token.charsOf (second :: others)) := by
      rw [Token.charsOf]
      cases first.isJoint <;> rfl
    rw [text, List.append_assoc, spacedFrom_append]
    rfl

theorem IsStream.spaced_piecesOf (h : IsStream tokens) (gap : Bool) (tail : List (Mark × Bool)) :
    spaced (piecesOf gap tokens ++ tail) =
      Token.charsOf tokens ++ following tokens gap (spaced tail) := by
  induction h generalizing gap tail with
  | nil => rfl
  | ident _ _ ih =>
    refine spaced_piecesOf_cons (fun gap tail => ?_) ih gap tail
    simp [Token.pieces, spaced, Mark.chars, Token.chars]
  | lifetime _ _ ih =>
    refine spaced_piecesOf_cons (fun gap tail => ?_) ?_ gap tail
    · simp [Token.pieces, spaced, Mark.chars, Token.chars]
    · refine spaced_piecesOf_cons (fun gap tail => ?_) ih
      simp [Token.pieces, spaced, Mark.chars, Token.chars]
  | punct _ noQuote _ ih =>
    refine spaced_piecesOf_cons (fun gap tail => ?_) ih gap tail
    simp [Token.pieces, spaced, Mark.chars, Token.chars, noQuote]
  | @group d content rest inside _ ihContent ih =>
    refine spaced_piecesOf_cons (fun gap tail => ?_) ih gap tail
    have empty := charsOf_isEmpty inside
    rw [Token.pieces, List.cons_append, List.append_assoc, spaced, ihContent, Token.chars]
    cases d with
    | parenthesis | bracket =>
      simp [following, spacedFrom, Delimiter.surround, Mark.chars, spaced]
    | brace =>
      cases content <;>
        simp_all [following, spacedFrom, Delimiter.surround, Delimiter.opening, Delimiter.closing,
          Mark.chars, spaced]

theorem IsStream.piecesOf_ne_nil (h : IsStream tokens) (ne : tokens ≠ []) (gap : Bool) :
    piecesOf gap tokens ≠ [] := by
  cases h with
  | nil => exact absurd rfl ne
  | ident | lifetime | punct | group => exact List.cons_ne_nil _ _

/-- Something follows a blank behind a token. -/
theorem IsStream.inner (h : IsStream tokens) (first : Token) (some : gap → tail ≠ []) :
    gapBehind gap first tokens → piecesOf gap tokens ++ tail ≠ [] := by
  cases tokens with
  | nil => exact some
  | cons second others =>
    intro _
    exact List.append_ne_nil_of_left_ne_nil (h.piecesOf_ne_nil (List.cons_ne_nil _ _) gap) _

theorem endsWord_behind (name : String) (tokens : List Token)
    (ends : gap = false → EndsWord (spaced tail)) :
    EndsWord (spacedFrom (gapBehind gap (.ident name) tokens)
      (spaced (piecesOf gap tokens ++ tail))) := by
  cases tokens with
  | nil =>
    cases gap with
    | false => exact ends rfl
    | true => exact endsWord_blank
  | cons => exact endsWord_blank

/-- The marks of tokens can be read, where no comment starts in their text. -/
theorem IsStream.wellSpaced (h : IsStream tokens) (after : WellSpaced tail)
    (some : gap → tail ≠ []) (ends : gap = false → EndsWord (spaced tail))
    (noComment : NoComment (spaced (piecesOf gap tokens ++ tail))) :
    WellSpaced (piecesOf gap tokens ++ tail) := by
  induction h generalizing gap tail with
  | nil => exact after
  | @ident name rest isName others ih =>
    have later := ih after some ends (noComment.of_suffix (spaced_suffix [_] _))
    exact ⟨others.inner _ some, ⟨isName, endsWord_behind name rest ends⟩, later⟩
  | @lifetime name rest isName others ih =>
    have later := ih after some ends (noComment.of_suffix (spaced_suffix [_, _] _))
    exact ⟨nofun, rfl, others.inner _ some, ⟨isName, endsWord_behind name rest ends⟩, later⟩
  | @punct c joint rest isPunct noQuote others ih =>
    have marks : piecesOf gap (.punct c joint :: rest) ++ tail =
        (.sign c joint, gapBehind gap (.punct c joint) rest) :: (piecesOf gap rest ++ tail) := by
      simp [piecesOf, Token.pieces, noQuote]
    rw [marks] at noComment ⊢
    have later := ih after some ends (noComment.of_suffix (spaced_suffix [_] _))
    have here : ¬StartsComment _ := (noComment_cons.mp noComment).1
    exact ⟨others.inner _ some, ⟨⟨isPunct, noQuote⟩, here⟩, later⟩
  | @group d content rest inside others ihContent ih =>
    have marks : piecesOf gap (.group d content :: rest) ++ tail =
        (.opening d, decide (d = .brace)) :: (piecesOf (decide (d = .brace)) content ++
          (.closing d, gapBehind gap (.group d content) rest) :: (piecesOf gap rest ++ tail)) := by
      simp [piecesOf, Token.pieces]
    rw [marks] at noComment ⊢
    have within := noComment.of_suffix (spaced_suffix [_] _)
    have behind := within.of_suffix (spaced_suffix _ _)
    have later := ih after some ends (behind.of_suffix (spaced_suffix [_] _))
    have closed : WellSpaced ((.closing d, gapBehind gap (.group d content) rest) ::
        (piecesOf gap rest ++ tail)) := ⟨others.inner _ some, trivial, later⟩
    have content := ihContent closed (fun _ => List.cons_ne_nil _ _)
      (fun _ => endsWord_closing d) within
    exact ⟨fun _ => List.append_ne_nil_of_right_ne_nil _ (List.cons_ne_nil _ _), trivial, content⟩

theorem IsStream.wellSpaced_pieces (h : IsStream tokens)
    (noComment : NoComment (spaced (piecesOf false tokens))) :
    WellSpaced (piecesOf false tokens) := by
  rw [← List.append_nil (piecesOf false tokens)] at noComment ⊢
  exact h.wellSpaced trivial nofun (fun _ => by simp [EndsWord, spaced]) noComment

/-! ## Reading marks -/

open ScanState

theorem reaches_gap : Reaches ⟨groups, read, spacedFrom gap text⟩ ⟨groups, read, text⟩ := by
  cases gap
  · exact .refl
  · exact reaches_blank

/-- A slash that starts no comment is read as a sign. -/
theorem reaches_slash (h : ¬StartsComment ('/' :: text)) :
    Reaches ⟨groups, read, '/' :: text⟩
      ⟨groups, .punct '/' (startsPunctuation text) :: read, text⟩ := by
  have starts : startsPunctuation ('/' :: text) := by
    unfold startsPunctuation
    split
    · next rest same => exact absurd (.inl ⟨rest, same.symm⟩) h
    · next rest same => exact absurd (.inr ⟨rest, same.symm⟩) h
    · next same =>
      cases same
      decide
    · next none => cases none
  have noMark : errorMark.isPrefixOf ('/' :: text) = false := not_errorMark nofun
  have found : leaf? ('/' :: text) = some (.punct '/' (startsPunctuation text), text) := by
    simp [leaf?, literalEnd?, noMark, textEnd?, numberEnd?, punctuation?, starts]
  exact reaches_leaf (by decide) (comment?_eq_none_of_not_starts h) (by decide) (by decide) found
    (by simp)

theorem reaches_punct (isPunct : isPunctuation c) (noQuote : c ≠ '\'')
    (noComment : ¬StartsComment (c :: text)) :
    Reaches ⟨groups, read, c :: text⟩
      ⟨groups, .punct c (startsPunctuation text) :: read, text⟩ := by
  by_cases slash : c = '/'
  · subst slash
    exact reaches_slash noComment
  · exact reaches_sign ⟨isPunct, slash, noQuote⟩

theorem not_errorMark_of_not_starts (h : ¬StartsComment text) :
    errorMark.isPrefixOf (d.opening :: text) = false := by
  have mark : errorMark = '(' :: (['/', '*'] ++ "ERROR*/)".toList) := rfl
  cases found : errorMark.isPrefixOf (d.opening :: text) with
  | false => rfl
  | true =>
    have isPrefix := List.isPrefixOf_iff_prefix.mp found
    rw [mark, List.cons_prefix_cons] at isPrefix
    exact absurd (.inr ((List.prefix_append _ _).trans isPrefix.2)) h

theorem exists_gap {marks : List Mark} (h : gaps.map Prod.fst = mark :: marks) :
    ∃ gap rest, gaps = (mark, gap) :: rest ∧ rest.map Prod.fst = marks := by
  obtain ⟨⟨_, gap⟩, rest, rfl, rfl, others⟩ := List.map_eq_cons_iff.mp h
  exact ⟨gap, rest, rfl, others⟩

/-- Marks of some tokens are read as these tokens, however much of them is joint. -/
theorem IsStream.reaches (h : IsStream tokens) (marks : gaps.map Prod.fst = marksOf tokens)
    (before : WellSpaced (gaps ++ rest)) :
    ∃ found, looseAll found = looseAll tokens ∧ ∀ groups read,
      Reaches ⟨groups, read, spaced (gaps ++ rest)⟩
        ⟨groups, found.reverse ++ read, spaced rest⟩ := by
  induction h generalizing gaps rest with
  | nil =>
    obtain rfl := List.map_eq_nil_iff.mp marks
    exact ⟨[], rfl, fun _ _ => .refl⟩
  | @ident name tokens isName _ ih =>
    obtain ⟨gap, gaps, rfl, others⟩ := exists_gap marks
    obtain ⟨_, ⟨_, ends⟩, later⟩ := before
    obtain ⟨found, same, reached⟩ := ih others later
    refine ⟨.ident name :: found, by simp only [looseAll, same], fun groups read => ?_⟩
    have first : Reaches ⟨groups, read, spaced ((.word name, gap) :: (gaps ++ rest))⟩ _ :=
      (reaches_name isName ends).trans reaches_gap
    simpa using first.trans (reached groups _)
  | @lifetime name tokens isName _ ih =>
    have marked : marksOf (.punct '\'' true :: .ident name :: tokens) =
        .quote :: .word name :: marksOf tokens := by
      simp [marksOf, Token.marks]
    obtain ⟨_, _, rfl, behind⟩ := exists_gap (marks.trans marked)
    obtain ⟨gap, gaps, rfl, others⟩ := exists_gap behind
    obtain ⟨_, rfl, _, ⟨_, ends⟩, later⟩ := before
    obtain ⟨found, same, reached⟩ := ih others later
    refine ⟨.punct '\'' true :: .ident name :: found, by simp only [looseAll, same],
      fun groups read => ?_⟩
    have quoted : Reaches ⟨groups, read,
        spaced ((.quote, false) :: (.word name, gap) :: (gaps ++ rest))⟩ _ :=
      ((reaches_quote isName ends).trans (reaches_name isName ends)).trans reaches_gap
    simpa using quoted.trans (reached groups _)
  | @punct c joint tokens isPunct noQuote _ ih =>
    rw [marksOf_punct _ noQuote] at marks
    obtain ⟨gap, gaps, rfl, others⟩ := exists_gap marks
    obtain ⟨_, ⟨_, noComment⟩, later⟩ := before
    obtain ⟨found, same, reached⟩ := ih others later
    refine ⟨.punct c (startsPunctuation (spacedFrom gap (spaced (gaps ++ rest)))) :: found,
      by simp only [looseAll, Token.loose, same], fun groups read => ?_⟩
    have first : Reaches ⟨groups, read, spaced ((.sign c joint, gap) :: (gaps ++ rest))⟩ _ :=
      (reaches_punct isPunct noQuote noComment).trans reaches_gap
    simpa using first.trans (reached groups _)
  | @group d content tokens _ _ ihContent ih =>
    rw [marksOf_group] at marks
    obtain ⟨gap, _, rfl, behind⟩ := exists_gap marks
    obtain ⟨inside, _, rfl, inner, behind⟩ := List.map_eq_append_iff.mp behind
    obtain ⟨gap', gaps, rfl, others⟩ := exists_gap behind
    rw [List.cons_append, List.append_assoc, List.cons_append] at before ⊢
    have within := before.2.2
    obtain ⟨foundInside, sameInside, reachedInside⟩ := ihContent inner within
    obtain ⟨found, same, reached⟩ := ih others within.of_append.2.2
    refine ⟨.group d foundInside :: found, by simp only [looseAll, Token.loose, same, sameInside],
      fun groups read => ?_⟩
    have noMark : errorMark.isPrefixOf (d.opening :: spacedFrom gap
        (spaced (inside ++ (.closing d, gap') :: (gaps ++ rest)))) = false := by
      refine not_errorMark_of_not_starts ?_
      cases gap
      · exact within.not_startsComment
      · exact not_startsComment (by decide)
    have opened : Reaches ⟨groups, read, spaced ((.opening d, gap) ::
        (inside ++ (.closing d, gap') :: (gaps ++ rest)))⟩ _ :=
      (reaches_opening noMark).trans reaches_gap
    have closed : Reaches ⟨(d, read) :: groups, foundInside.reverse ++ [],
        spaced ((.closing d, gap') :: (gaps ++ rest))⟩ _ :=
      reaches_closing.trans reaches_gap
    have group := (opened.trans (reachedInside _ _)).trans closed
    simpa using group.trans (reached groups _)

/-! ## Tokens found again -/

/-- Tokens are found in every text of their marks in which these can be read. -/
theorem IsStream.readsBack_spaced (h : IsStream tokens)
    (marks : gaps.map Prod.fst = marksOf tokens) (before : WellSpaced gaps) :
    ReadsBack (spaced gaps) tokens := by
  have whole := before
  rw [← List.append_nil gaps] at whole
  obtain ⟨found, same, reached⟩ := h.reaches marks whole
  have all := reached [] []
  rw [List.append_nil, List.append_nil] at all
  rw [ReadsBack, scan?_of_reaches before.dropOrderMark all, Option.map_some, same]

/-- The text of tokens is that of their marks. -/
theorem IsStream.charsOf_eq (h : IsStream tokens) :
    Token.charsOf tokens = spaced (piecesOf false tokens) := by
  have text := h.spaced_piecesOf false []
  have nothing : following tokens false (spaced []) = [] := by
    simp [following, spacedFrom, spaced]
  rw [List.append_nil, nothing, List.append_nil] at text
  exact text.symm

/-- Tokens are found in their own text just where no comment starts in it. -/
theorem IsStream.readsBack_iff (h : IsStream tokens) :
    ReadsBack (Token.charsOf tokens) tokens ↔ NoComment (Token.charsOf tokens) := by
  refine ⟨h.noComment, fun noComment => ?_⟩
  rw [h.charsOf_eq] at noComment ⊢
  exact h.readsBack_spaced (map_fst_piecesOf false tokens) (h.wellSpaced_pieces noComment)

/-- What is written of tokens is the text of their marks with blanks removed beside separating
characters, and the tokens are found in it. -/
theorem IsStream.written_tightened (h : IsStream tokens)
    (back : ReadsBack (Token.charsOf tokens) tokens) :
    ∃ gaps, (written tokens).toList = spaced gaps ∧
      Tightened Mark.Beside (piecesOf false tokens) gaps ∧ ReadsBack (spaced gaps) tokens := by
  have before := h.wellSpaced_pieces (h.charsOf_eq ▸ h.noComment back)
  have tightens : ∃ gaps, (written tokens).toList = spaced gaps ∧
      Tightened Mark.Beside (piecesOf false tokens) gaps := by
    refine written_induction (P := fun text => ∃ gaps, text = spaced gaps ∧
      Tightened Mark.Beside (piecesOf false tokens) gaps) ?_ ⟨_, h.charsOf_eq, .refl _ _⟩
    rintro text text' closes ⟨gaps, rfl, removed⟩
    obtain ⟨gaps', rfl, tightened⟩ := closes.tightened (removed.wellSpaced before)
    exact ⟨gaps', rfl, removed.trans tightened⟩
  obtain ⟨gaps, text, removed⟩ := tightens
  have marks : gaps.map Prod.fst = marksOf tokens :=
    removed.map_fst.trans (map_fst_piecesOf false tokens)
  exact ⟨gaps, text, removed, h.readsBack_spaced marks (removed.wellSpaced before)⟩

/-- Writing tokens takes only blanks from their text, each between two marks and none between two
that are names or lifetimes. The tokens are found again in what is written, so that two streams are
written alike only if they are the same but for what is joint. -/
theorem spacing_keeps_tokens (stream : IsStream tokens)
    (back : ReadsBack (Token.charsOf tokens) tokens) :
    (∃ gaps gaps', gaps.map Prod.fst = marksOf tokens ∧ Token.charsOf tokens = spaced gaps ∧
      (written tokens).toList = spaced gaps' ∧
      Tightened (fun mark next => ¬(mark.IsWordlike ∧ next.IsWordlike)) gaps gaps') ∧
    ReadsBack (written tokens).toList tokens ∧
    ∀ tokens', IsStream tokens' → ReadsBack (Token.charsOf tokens') tokens' →
      written tokens = written tokens' → looseAll tokens = looseAll tokens' := by
  obtain ⟨gaps, text, removed, again⟩ := stream.written_tightened back
  refine ⟨⟨piecesOf false tokens, gaps, map_fst_piecesOf false tokens, stream.charsOf_eq, text,
    removed.mono fun _ _ => Mark.Beside.not_wordlike⟩, text ▸ again, ?_⟩
  intro tokens' stream' back' same
  obtain ⟨gaps', text', _, again'⟩ := stream'.written_tightened back'
  rw [← text, same, text'] at again
  exact Option.some.inj (again.symm.trans again')

theorem quotient_keeps_tokens :
    let tokens : List Token := [.punct '<' false, .punct '&' true, .punct '\'' true, .ident "a",
      .group .bracket [.ident "A", .punct '/' false, .punct '*' false, .ident "B"],
      .punct '>' false]
    IsStream tokens ∧ ReadsBack (Token.charsOf tokens) tokens ∧
      Token.charsOf tokens = "< &'a [A / * B] >".toList ∧ written tokens = "<&'a [A / * B]>" ∧
      ReadsBack (written tokens).toList tokens := by
  intro tokens
  have quotient : IsStream [.ident "A", .punct '/' false, .punct '*' false, .ident "B"] :=
    .ident (by decide +kernel) <| .punct (by decide) (by decide) <|
      .punct (by decide) (by decide) <| .ident (by decide +kernel) .nil
  have stream : IsStream tokens :=
    .punct (by decide) (by decide) <| .punct (by decide) (by decide) <|
      .lifetime (by decide +kernel) <| .group .bracket quotient <|
        .punct (by decide) (by decide) .nil
  have back : ReadsBack (Token.charsOf tokens) tokens :=
    stream.readsBack_iff.mpr (by decide +kernel)
  exact ⟨stream, back, by decide +kernel, by decide +kernel, (spacing_keeps_tokens stream back).2.1⟩

end MiddlewareStack.Source
