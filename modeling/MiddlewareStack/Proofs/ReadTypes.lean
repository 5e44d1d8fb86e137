import Mathlib.Algebra.BigOperators.Group.List.Basic
import MiddlewareStack.Proofs.ReadTokens

/-!
# Reading types that were written

References and paths with lifetimes and types as arguments are read again from what they are written
as, wherever an argument or a list of them ends behind it.
-/

namespace MiddlewareStack.Source

open TokenReader

/-! ## Tokens that were found again -/

/-- The tokens of a scan for those that were written. -/
abbrev Found (tokens found : List Token) : Prop :=
  List.Forall₂ Token.Tighter tokens found

section Found

variable {tokens tokens' found : List Token} {name : String} {c c' : Char} {joint : Bool}
  {d : Delimiter}

theorem found_nil : Found [] found ↔ found = [] :=
  List.forall₂_nil_left_iff

theorem found_ident :
    Found (.ident name :: tokens) found ↔
      ∃ rest, found = .ident name :: rest ∧ Found tokens rest := by
  constructor
  · rintro (_ | ⟨⟨⟩, behind⟩)
    exact ⟨_, rfl, behind⟩
  · rintro ⟨rest, rfl, behind⟩
    exact .cons (.ident name) behind

theorem found_punct (h : Found (.punct c joint :: tokens) found) :
    ∃ joint', (joint → joint' = true) ∧ ∃ rest, found = .punct c joint' :: rest ∧
      Found tokens rest := by
  cases h with
  | cons same behind =>
    cases same with
    | punct _ kept => exact ⟨_, kept, _, rfl, behind⟩

theorem found_group (h : Found (.group d tokens :: tokens') found) :
    ∃ inside rest, found = .group d inside :: rest ∧ Found tokens inside ∧ Found tokens' rest := by
  cases h with
  | cons same behind =>
    cases same with
    | group _ inside => exact ⟨_, _, rfl, inside, behind⟩

theorem found_append (h : Found (tokens ++ tokens') found) :
    ∃ front behind, found = front ++ behind ∧ Found tokens front ∧ Found tokens' behind := by
  induction tokens generalizing found with
  | nil => exact ⟨[], found, rfl, .nil, h⟩
  | cons first rest ih =>
    obtain _ | ⟨same, others⟩ := h
    obtain ⟨front, behind, rfl, inFront, isBehind⟩ := ih others
    exact ⟨_ :: front, behind, rfl, .cons same inFront, isBehind⟩

/-- An operator of two characters. -/
theorem found_pair (h : Found (.punct c true :: .punct c' false :: tokens) found) :
    ∃ joint rest, found = .punct c true :: .punct c' joint :: rest ∧ Found tokens rest := by
  obtain ⟨_, kept, _, rfl, others⟩ := found_punct h
  obtain ⟨joint, _, rest, rfl, behind⟩ := found_punct others
  exact ⟨joint, rest, by rw [kept rfl], behind⟩

theorem found_lifetime (h : Found (Token.lifetime name) found) : found = Token.lifetime name := by
  obtain ⟨joint, kept, _, rfl, behind⟩ := found_punct h
  obtain ⟨_, rfl, isNil⟩ := found_ident.mp behind
  rw [kept rfl, found_nil.mp isNil]
  rfl

theorem found_lifetimes {lifetime : Option String}
    (h : Found ((lifetime.map Token.lifetime).getD []) found) :
    found = (lifetime.map Token.lifetime).getD [] := by
  cases lifetime with
  | none => exact found_nil.mp h
  | some name => exact found_lifetime h

theorem found_word {present : Prop} [Decidable present]
    (h : Found (if present then [.ident name] else []) found) :
    found = if present then [.ident name] else [] := by
  split at h
  · next yes =>
    obtain ⟨_, rfl, isNil⟩ := found_ident.mp h
    rw [found_nil.mp isNil, if_pos yes]
  · next no => rw [found_nil.mp h, if_neg no]

end Found

/-! ## Words of paths -/

/-- A name that may stand in a path. -/
def IsPathName (name : String) : Prop :=
  IsName name ∧ (name ∈ reservedWords → name ∈ Lookahead.pathWords)

instance (name : String) : Decidable (IsPathName name) := inferInstanceAs (Decidable (_ ∧ _))

/-- A name that may stand in a path without arguments behind it. -/
def IsBareName (name : String) : Prop :=
  IsName name ∧ (name ∈ reservedWords → name ∈ "try" :: Lookahead.pathWords)

variable {name : String} {rest found : List Token}

theorem IsPathName.bare (h : IsPathName name) : IsBareName name :=
  ⟨h.1, fun reserved => List.mem_cons_of_mem _ (h.2 reserved)⟩

theorem IsPathName.ne (h : IsPathName name) (word : String) (reserved : word ∈ reservedWords)
    (other : word ∉ Lookahead.pathWords) : name ≠ word := by
  rintro rfl
  exact other (h.2 reserved)

/-- What ends a type: nothing, or a comma, or a closing bracket. -/
def EndsType (rest : List Token) : Prop :=
  ∀ token ∈ rest.head?, ∃ c joint, token = .punct c joint ∧ (c = ',' ∨ c = '>')

/-- What ends a segment of a path, which goes on with no arguments. -/
def EndsSegment (rest : List Token) : Prop :=
  Lookahead.operator "<" rest = false ∧
    (Lookahead.operator "::" rest && Lookahead.operator "<" (rest.drop 2)) = false

/-- What starts arguments behind a name. -/
def StartsArguments (tokens : List Token) : Prop :=
  (Lookahead.operator "<" tokens && !Lookahead.operator "<=" tokens ||
    Lookahead.operator "::" tokens && Lookahead.operator "<" (tokens.drop 2)) = true

/-- Where a type starts: with a name, a borrow or a separator. -/
def StartsType (tokens : List Token) : Prop :=
  ∃ first rest, tokens = first :: rest ∧
    ((∃ name, first = .ident name ∧ IsPathName name) ∨
      ∃ c joint, first = .punct c joint ∧ (c = '&' ∨ c = ':'))

/-! ## Segments -/

def Segment.tokens (s : Segment) : List Token :=
  .ident s.name :: s.arguments.tokens

theorem segmentTokens_eq (segments : List Segment) :
    segmentTokens segments = segments.map Segment.tokens := by
  induction segments with
  | nil => rfl
  | cons first rest ih =>
    cases first
    rw [segmentTokens, ih]
    rfl

theorem IsBareName.segment (h : IsBareName name) (rest : List Token) :
    (Lookahead.name (.ident name :: rest) || Lookahead.word "Self" (.ident name :: rest) ||
      Lookahead.oneOf ["super", "self", "crate", "try"] (.ident name :: rest)) = true := by
  by_cases reserved : name ∈ reservedWords
  · have among := h.2 reserved
    simp only [Lookahead.pathWords, List.mem_cons, List.not_mem_nil, or_false] at among
    rcases among with rfl | rfl | rfl | rfl | rfl <;> rfl
  · simp [Lookahead.name, reserved]

theorem bareSegment_reads {inner : Inner} (isName : IsBareName name) (ends : EndsSegment rest) :
    (segment inner false).run (.ident name :: rest) =
      some ({ name, arguments := .none }, rest) := by
  obtain ⟨noBracket, noArguments⟩ := ends
  have named := isName.segment rest
  cases word : Lookahead.oneOf ["super", "self", "crate", "try"] (.ident name :: rest) with
  | true => simp [segment, word]
  | false =>
    rw [word, Bool.or_false] at named
    simp only [segment, run_bind, run_remaining, Option.bind_some, word, run_ite,
      Bool.false_eq_true, if_false, run_require, named, if_true, run_anyName, noBracket,
      noArguments, Bool.not_false, Bool.true_and, Bool.false_and, Bool.or_self, run_pure]

theorem segment_reads {inner : Inner} {tokens : List Token} {arguments : Arguments}
    (isName : IsPathName name) (noWord : name ∉ ["super", "self", "crate"])
    (starts : StartsArguments tokens)
    (run : (angledArguments inner).run tokens = some (arguments, rest)) :
    (segment inner false).run (.ident name :: tokens) = some (⟨name, arguments⟩, rest) := by
  have noTry : name ≠ "try" := isName.ne "try" (by decide) (by decide)
  have named := isName.bare.segment tokens
  have plain :
      Lookahead.oneOf ["super", "self", "crate", "try"] (.ident name :: tokens) = false := by
    simp only [List.mem_cons, List.not_mem_nil, or_false, not_or] at noWord
    simp [Lookahead.oneOf, noWord, noTry]
  rw [plain, Bool.or_false] at named
  rw [StartsArguments] at starts
  simp only [segment, run_bind, run_remaining, Option.bind_some, plain, run_ite,
    Bool.false_eq_true, if_false, run_require, named, if_true, run_anyName, Bool.not_false,
    Bool.true_and, starts, run, run_pure]

section Inner

variable {inner : Inner} {segments : List Segment} {first last : Segment}

/-- A segment is read from what it is written as. -/
def SegmentReads (inner : Inner) (s : Segment) : Prop :=
  ∀ found rest, Found s.tokens found → EndsSegment rest →
    (segment inner false).run (found ++ rest) = some (s, rest)

theorem separatedBy_cons (separator first : List Token) (others : List (List Token)) :
    separatedBy separator false (first :: others) =
      first ++ others.flatMap (separator ++ ·) := by
  induction others generalizing first with
  | nil => simp [separatedBy]
  | cons second others ih =>
    rw [separatedBy, ih, List.flatMap_cons, List.append_assoc, List.append_assoc]
    exact nofun

theorem EndsType.operator (h : EndsType rest) (text : String) {c : Char}
    (first : text.toList.head? = some c) (other : c ≠ ',' ∧ c ≠ '>') :
    Lookahead.operator text rest = false := by
  obtain ⟨behind, split⟩ := List.head?_eq_some_iff.mp first
  rw [Lookahead.operator, split]
  cases rest with
  | nil => cases behind <;> rfl
  | cons token rest =>
    obtain ⟨x, joint, rfl, ends⟩ := h token rfl
    have ne : x ≠ c := by
      rintro rfl
      exact ends.elim other.1 other.2
    cases behind <;> simp [Lookahead.operatorChars, ne]

theorem EndsType.segment (h : EndsType rest) : EndsSegment rest := by
  have noBracket : Lookahead.operator "<" rest = false := h.operator "<" rfl (by decide)
  have noSeparator : Lookahead.operator "::" rest = false := h.operator "::" rfl (by decide)
  exact ⟨noBracket, by simp [noSeparator]⟩

/-- Behind a first segment, the others are read up to where the type ends. -/
theorem others_read (read : ∀ s ∈ segments, SegmentReads inner s) (ends : EndsType rest)
    {bound : List Token} (enough : segments.length ≤ bound.length)
    (h : Found (segments.flatMap fun s => Token.operator "::" ++ s.tokens) found) :
    (whileAheadFrom continuesPath (do TokenReader.operator "::"; segment inner false) bound).run
      (found ++ rest) = some (segments, rest) ∧
    EndsSegment (found ++ rest) := by
  induction segments generalizing found bound with
  | nil =>
    obtain rfl := found_nil.mp h
    have stops : continuesPath rest = false := by
      simp [continuesPath, ends.operator "::" rfl (by decide)]
    refine ⟨?_, ends.segment⟩
    cases bound <;> simp [whileAheadFrom, stops]
  | cons s segments ih =>
    obtain ⟨first, others⟩ := List.forall_mem_cons.mp read
    cases bound with
    | nil => simp at enough
    | cons _ bound =>
      rw [List.flatMap_cons, operator_separator, List.append_assoc, List.cons_append,
        List.cons_append, List.nil_append] at h
      obtain ⟨joint, _, rfl, afterPair⟩ := found_pair h
      obtain ⟨front, behind, rfl, here, there⟩ := found_append afterPair
      obtain ⟨tail, rfl, _⟩ := found_ident.mp here
      have enough' : segments.length ≤ bound.length := by simpa using enough
      obtain ⟨readOthers, endsHere⟩ := ih others enough' there
      have readFirst := first _ _ here endsHere
      simp only [List.cons_append, List.append_assoc] at readFirst ⊢
      refine ⟨?_, ?_, ?_⟩
      · simp [whileAheadFrom, continuesPath, Lookahead.operator, Lookahead.operatorChars,
          Lookahead.group, String.length, readFirst, readOthers]
      · simp [Lookahead.operator, Lookahead.operatorChars]
      · simp [Lookahead.operator, Lookahead.operatorChars]

theorem path_reads {rooted : Bool} {others : List Segment}
    (read : ∀ s ∈ first :: others, SegmentReads inner s) (ends : EndsType rest)
    (h : Found (PathExpr.tokens ⟨rooted, first :: others⟩) found) :
    (path inner false).run (found ++ rest) = some (⟨rooted, first :: others⟩, rest) := by
  obtain ⟨readFirst, readOthers⟩ := List.forall_mem_cons.mp read
  rw [PathExpr.tokens, segmentTokens_eq, List.map_cons, separatedBy_cons, List.flatMap_map] at h
  -- the segments, whatever stands before them
  have segments : ∀ {found}, Found (first.tokens ++
      others.flatMap fun s => Token.operator "::" ++ s.tokens) found →
      Lookahead.operator "::" (found ++ rest) = false ∧
      ((do
        let first ← segment inner false
        let others ← whileAhead continuesPath do
          TokenReader.operator "::"
          segment inner false
        return { rooted, segments := first :: others } : TokenReader PathExpr).run
          (found ++ rest)) =
      some (⟨rooted, first :: others⟩, rest) := by
    intro found h
    obtain ⟨front, behind, rfl, here, there⟩ := found_append h
    obtain ⟨tail, rfl, _⟩ := found_ident.mp here
    have enough : others.length ≤ (behind ++ rest).length := by
      rw [List.length_append, ← there.length_eq]
      have counted : others.length ≤
          (others.flatMap fun s => Token.operator "::" ++ s.tokens).length := by
        have each : ∀ n ∈ others.map fun s => (Token.operator "::" ++ s.tokens).length, 1 ≤ n := by
          intro n member
          obtain ⟨s, _, rfl⟩ := List.mem_map.mp member
          rw [Segment.tokens, List.length_append, List.length_cons]
          omega
        rw [List.length_flatMap]
        simpa using List.length_le_sum_of_one_le _ each
      omega
    obtain ⟨run, endsHere⟩ := others_read readOthers ends enough there
    have runFirst := readFirst _ _ here endsHere
    simp only [List.cons_append, List.append_assoc] at runFirst ⊢
    refine ⟨rfl, ?_⟩
    simp [runFirst, whileAhead, run]
  cases rooted with
  | false =>
    obtain ⟨noSeparator, run⟩ := segments h
    simp only [path, run_bind, run_skipOperator, noSeparator]
    simpa using run
  | true =>
    rw [if_pos rfl, operator_separator, List.cons_append, List.cons_append, List.nil_append] at h
    obtain ⟨joint, found, rfl, behind⟩ := found_pair h
    obtain ⟨_, run⟩ := segments behind
    simpa [path, Lookahead.operator, Lookahead.operatorChars, String.length] using run

end Inner

/-! ## Arguments -/

theorem length_le_separatedBy (separator : List Token) (trailing : Bool)
    {lists : List (List Token)} (some : ∀ list ∈ lists, list ≠ []) :
    lists.length ≤ (separatedBy separator trailing lists).length := by
  induction lists with
  | nil => exact Nat.le_refl _
  | cons first rest ih =>
    obtain ⟨nonempty, others⟩ := List.forall_mem_cons.mp some
    have one := List.length_pos_iff.mpr nonempty
    have behind := ih others
    cases rest with
    | nil => cases trailing <;> simp [separatedBy] <;> omega
    | cons second rest =>
      rw [separatedBy, List.length_append, List.length_append, List.length_cons]
      · omega
      · exact nofun

theorem separatedBy_followed {separator first : List Token} {others : List (List Token)}
    {trailing : Bool} (followed : others = [] → trailing = true) :
    separatedBy separator trailing (first :: others) =
      first ++ separator ++ separatedBy separator trailing others := by
  cases others with
  | nil => simp [separatedBy, followed rfl]
  | cons second others => rw [separatedBy]; exact nofun

/-- Items between commas are read up to where they stop. -/
theorem separatedFrom_reads {α : Type} {tokensOf : α → List Token} {item : TokenReader α}
    {stop : List Token → Bool} {items : List α} {trailing : Bool} {bound : List Token}
    (read : ∀ a ∈ items, ∀ found rest, Found (tokensOf a) found → EndsType rest →
      stop (found ++ rest) = false ∧ item.run (found ++ rest) = some (a, rest))
    (closed : items = [] → trailing = true) (stops : stop rest = true) (ends : EndsType rest)
    (noComma : Lookahead.operator "," rest = false) (enough : items.length ≤ bound.length)
    (h : Found (separatedBy comma trailing (items.map tokensOf)) found) :
    (separatedFrom stop "," item bound).run (found ++ rest) = some ((items, trailing), rest) := by
  induction items generalizing found bound with
  | nil =>
    obtain rfl := found_nil.mp h
    cases bound <;> simp [separatedFrom, stops, closed rfl]
  | cons first items ih =>
    obtain ⟨readFirst, readOthers⟩ := List.forall_mem_cons.mp read
    cases bound with
    | nil => simp at enough
    | cons _ bound =>
      have enough' : items.length ≤ bound.length := by simpa using enough
      by_cases more : items = [] → trailing = true
      · rw [List.map_cons, separatedBy_followed (by simpa using more), comma_eq] at h
        obtain ⟨_, behind, rfl, followed, there⟩ := found_append h
        obtain ⟨front, _, rfl, here, isComma⟩ := found_append followed
        obtain ⟨joint, _, _, rfl, isNil⟩ := found_punct isComma
        obtain rfl := found_nil.mp isNil
        have commaEnds : EndsType (.punct ',' joint :: (behind ++ rest)) := by
          rintro _ ⟨⟩
          exact ⟨',', joint, rfl, .inl rfl⟩
        obtain ⟨goesOn, run⟩ := readFirst front _ here commaEnds
        have runOthers := ih readOthers more enough' there
        simp only [List.append_assoc, List.singleton_append] at goesOn run ⊢
        simp [separatedFrom, goesOn, run, Lookahead.operator, Lookahead.operatorChars,
          String.length, runOthers]
      · obtain ⟨rfl, last⟩ := Classical.not_imp.mp more
        rw [List.map_singleton, separatedBy, if_neg last] at h
        obtain ⟨goesOn, run⟩ := readFirst found rest h ends
        simp [separatedFrom, goesOn, run, noComma, last]

theorem joinItems_withCommas (trailing : Bool) (items : List ListItem) :
    joinItems true (withCommas trailing items) =
      separatedBy comma trailing (items.map ListItem.tokens) := by
  induction items with
  | nil => rfl
  | cons first rest ih =>
    cases rest with
    | nil => cases trailing <;> simp [withCommas, joinItems, separatedBy]
    | cons second rest =>
      rw [withCommas, joinItems, ih]
      · simp [separatedBy]
      · exact nofun

theorem map_fst_withCommas (trailing : Bool) (items : List ListItem) :
    (withCommas trailing items).map Prod.fst = items := by
  induction items with
  | nil => rfl
  | cons first rest ih =>
    cases rest with
    | nil => rfl
    | cons second rest =>
      rw [withCommas, List.map_cons, ih]
      exact nofun

/-- Where the lifetimes stand first, the items keep their order. -/
theorem lifetimesFirst_eq {front behind : List ListItem} (trailing : Bool)
    (lifetimes : ∀ item ∈ front, item.isLifetime)
    (others : ∀ item ∈ behind, item.isLifetime = false) :
    lifetimesFirst trailing (front ++ behind) =
      separatedBy comma trailing ((front ++ behind).map ListItem.tokens) := by
  obtain ⟨marked, unmarked, split, inFront, isBehind⟩ :=
    List.map_eq_append_iff.mp (map_fst_withCommas trailing (front ++ behind))
  have first : ∀ item ∈ marked, item.1.isLifetime := fun item member =>
    lifetimes _ (inFront ▸ List.mem_map_of_mem member)
  have second : ∀ item ∈ unmarked, item.1.isLifetime = false := fun item member =>
    others _ (isBehind ▸ List.mem_map_of_mem member)
  have kept : marked.filter (·.1.isLifetime) = marked ∧ unmarked.filter (·.1.isLifetime) = [] ∧
      marked.filter (!·.1.isLifetime) = [] ∧ unmarked.filter (!·.1.isLifetime) = unmarked := by
    simp only [List.filter_eq_self, List.filter_eq_nil_iff]
    exact ⟨first, fun item member => by simp [second item member],
      fun item member => by simp [first item member],
      fun item member => by simp [second item member]⟩
  rw [lifetimesFirst, split, List.filter_append, List.filter_append, kept.1, kept.2.1, kept.2.2.1,
    kept.2.2.2, List.append_nil, List.nil_append, ← split, joinItems_withCommas]

/-- Arguments with the lifetimes first. -/
def orderedArguments (lifetimes : List String) (types : List TypeExpr) : List Argument :=
  lifetimes.map .lifetime ++ types.map .type

theorem argumentItems_eq (arguments : List Argument) :
    argumentItems arguments = arguments.map fun argument =>
      { isLifetime := argument.isLifetime, tokens := argument.tokens } := by
  induction arguments with
  | nil => rfl
  | cons first rest ih => rw [argumentItems, ih, List.map_cons]

theorem ordered_tokens (trailing : Bool) (lifetimes : List String) (types : List TypeExpr) :
    lifetimesFirst trailing (argumentItems (orderedArguments lifetimes types)) =
      separatedBy comma trailing ((orderedArguments lifetimes types).map Argument.tokens) := by
  rw [argumentItems_eq, orderedArguments, List.map_append, lifetimesFirst_eq]
  · rw [← List.map_append, List.map_map]
    rfl
  · simp [Argument.isLifetime]
  · simp [Argument.isLifetime]

section Inner

variable {inner : Inner} {type : TypeExpr}

/-- A type is read from what it is written as, in either place. -/
structure TypeReads (inner : Inner) (type : TypeExpr) : Prop where
  starts : ∀ found, Found type.tokens found → StartsType found
  reads : ∀ plus found rest, Found type.tokens found → EndsType rest →
    (inner.type plus).run (found ++ rest) = some (type, rest)

theorem lifetime_argument_reads (h : Found (Argument.lifetime name).tokens found)
    (ends : EndsType rest) :
    Lookahead.operator ">" (found ++ rest) = false ∧
      (angledArgument inner).run (found ++ rest) = some (.lifetime name, rest) := by
  rw [Argument.tokens, Token.lifetime] at h
  obtain ⟨joint, kept, _, rfl, behind⟩ := found_punct h
  obtain rfl := kept rfl
  obtain ⟨_, rfl, isNil⟩ := found_ident.mp behind
  obtain rfl := found_nil.mp isNil
  have noPlus : Lookahead.operator "+" rest = false := ends.operator "+" rfl (by decide)
  constructor
  · simp [Lookahead.operator, Lookahead.operatorChars]
  · simp [angledArgument, Lookahead.lifetime, Lookahead.rest, noPlus]

theorem StartsType.operator (h : StartsType found) (text : String) {c : Char}
    (first : text.toList.head? = some c) (other : c ≠ '&' ∧ c ≠ ':') :
    Lookahead.operator text (found ++ rest) = false := by
  obtain ⟨behind, split⟩ := List.head?_eq_some_iff.mp first
  obtain ⟨token, tail, rfl, ⟨name, rfl, _⟩ | ⟨x, joint, rfl, mark⟩⟩ := h
  · rw [Lookahead.operator, split]
    cases behind <;> rfl
  · have ne : x ≠ c := by
      rintro rfl
      exact mark.elim other.1 other.2
    rw [Lookahead.operator, split]
    cases behind <;> simp [Lookahead.operatorChars, ne]

theorem StartsType.lifetime (h : StartsType found) :
    Lookahead.lifetime (found ++ rest) = false := by
  obtain ⟨token, tail, rfl, ⟨name, rfl, _⟩ | ⟨x, joint, rfl, mark⟩⟩ := h
  · rfl
  · rcases mark with rfl | rfl <;> rfl

theorem StartsType.word (h : StartsType found) {word : String} (reserved : word ∈ reservedWords)
    (other : word ∉ Lookahead.pathWords) : Lookahead.word word (found ++ rest) = false := by
  obtain ⟨token, tail, rfl, ⟨name, rfl, isName⟩ | ⟨x, joint, rfl, _⟩⟩ := h
  · simpa [Lookahead.word] using isName.ne word reserved other
  · rfl

theorem StartsType.constant (h : StartsType found) : startsConstant (found ++ rest) = false := by
  obtain ⟨token, tail, rfl, ⟨name, rfl, isName⟩ | ⟨x, joint, rfl, mark⟩⟩ := h
  · have notTrue : name ≠ "true" := isName.ne _ (by decide) (by decide)
    have notFalse : name ≠ "false" := isName.ne _ (by decide) (by decide)
    simp [startsConstant, Lookahead.literal, Lookahead.group, notTrue, notFalse]
  · rcases mark with rfl | rfl <;> rfl

theorem type_argument_reads (reads : TypeReads inner type)
    (h : Found (Argument.type type).tokens found) (ends : EndsType rest) :
    Lookahead.operator ">" (found ++ rest) = false ∧
      (angledArgument inner).run (found ++ rest) = some (.type type, rest) := by
  rw [Argument.tokens] at h
  have starts := reads.starts found h
  have run := reads.reads true found rest h ends
  have noEquals : Lookahead.operator "=" rest = false := ends.operator "=" rfl (by decide)
  have noColon : Lookahead.operator ":" rest = false := ends.operator ":" rfl (by decide)
  refine ⟨starts.operator ">" rfl (by decide), ?_⟩
  simp only [angledArgument, run_bind, run_remaining, Option.bind_some, starts.lifetime,
    starts.constant, Bool.false_and, Bool.false_eq_true, if_false, run]
  cases type <;> simp [atOperator, noEquals, noColon]

variable {lifetimes : List String} {types : List TypeExpr} {trailing marked : Bool}

theorem argument_reads (types_read : ∀ type ∈ types, TypeReads inner type) :
    ∀ argument ∈ orderedArguments lifetimes types, ∀ found rest,
      Found argument.tokens found → EndsType rest →
      Lookahead.operator ">" (found ++ rest) = false ∧
        (angledArgument inner).run (found ++ rest) = some (argument, rest) := by
  intro argument member found rest h ends
  rcases List.mem_append.mp member with inFront | isBehind
  · obtain ⟨name, _, rfl⟩ := List.mem_map.mp inFront
    exact lifetime_argument_reads h ends
  · obtain ⟨type, among, rfl⟩ := List.mem_map.mp isBehind
    exact type_argument_reads (types_read type among) h ends

theorem argument_tokens_ne_nil (types_read : ∀ type ∈ types, TypeReads inner type) :
    ∀ argument ∈ orderedArguments lifetimes types, argument.tokens ≠ [] := by
  intro argument member
  rcases List.mem_append.mp member with inFront | isBehind
  · obtain ⟨name, _, rfl⟩ := List.mem_map.mp inFront
    exact List.cons_ne_nil _ _
  · obtain ⟨type, among, rfl⟩ := List.mem_map.mp isBehind
    intro empty
    rw [Argument.tokens] at empty
    obtain ⟨_, _, starts, _⟩ := (types_read type among).starts [] (by rw [empty]; exact .nil)
    cases starts

/-- No arguments start with an equals sign. -/
theorem arguments_start (types_read : ∀ type ∈ types, TypeReads inner type)
    (h : Found (separatedBy comma trailing ((orderedArguments lifetimes types).map Argument.tokens))
      found) (joint : Bool) (rest : List Token) :
    Lookahead.operator "=" (found ++ .punct '>' joint :: rest) = false := by
  cases listed : orderedArguments lifetimes types with
  | nil =>
    rw [listed] at h
    obtain rfl := found_nil.mp h
    rfl
  | cons first others =>
    rw [listed, List.map_cons] at h
    obtain ⟨front, tail, rfl, here⟩ :
        ∃ front tail, found = front ++ tail ∧ Found first.tokens front := by
      by_cases more : others.map Argument.tokens = [] → trailing = true
      · rw [separatedBy_followed more] at h
        obtain ⟨_, behind, rfl, followed, _⟩ := found_append h
        obtain ⟨front, _, rfl, here, _⟩ := found_append followed
        exact ⟨front, _, List.append_assoc _ _ _, here⟩
      · obtain ⟨none, last⟩ := Classical.not_imp.mp more
        rw [none, separatedBy, if_neg last] at h
        exact ⟨found, [], (List.append_nil _).symm, h⟩
    rw [List.append_assoc]
    have member : first ∈ orderedArguments lifetimes types := listed ▸ List.mem_cons_self
    rcases List.mem_append.mp member with inFront | isBehind
    · obtain ⟨name, _, rfl⟩ := List.mem_map.mp inFront
      rw [Argument.tokens, Token.lifetime] at here
      obtain ⟨joint, _, _, rfl, _⟩ := found_punct here
      rfl
    · obtain ⟨type, among, rfl⟩ := List.mem_map.mp isBehind
      exact ((types_read type among).starts front here).operator "=" rfl (by decide)

/-- What arguments are between their brackets, behind a separator or not. -/
theorem found_angled (h : Found (Arguments.angled marked
      (orderedArguments lifetimes types) trailing).tokens found) :
    ∃ front list, found = front ++ list ∧
      Found (if marked then Token.operator "::" else []) front ∧
      ∃ joint inside joint', list = .punct '<' joint :: (inside ++ [.punct '>' joint']) ∧
        Found (separatedBy comma trailing
          ((orderedArguments lifetimes types).map Argument.tokens)) inside := by
  rw [Arguments.tokens, ordered_tokens, angleBrackets, operator_less, operator_greater] at h
  obtain ⟨front, list, rfl, here, there⟩ := found_append h
  obtain ⟨_, _, rfl, opened, closed⟩ := found_append there
  obtain ⟨joint, _, inside, rfl, listed⟩ := found_punct opened
  obtain ⟨joint', _, _, rfl, isNil⟩ := found_punct closed
  obtain rfl := found_nil.mp isNil
  exact ⟨front, _, rfl, here, joint, inside, joint', rfl, listed⟩

theorem angledArguments_read (types_read : ∀ type ∈ types, TypeReads inner type)
    (closed : orderedArguments lifetimes types = [] → trailing = true)
    (h : Found (Arguments.angled marked (orderedArguments lifetimes types) trailing).tokens
      found) :
    (angledArguments inner).run (found ++ rest) =
      some (.angled marked (orderedArguments lifetimes types) trailing, rest) := by
  obtain ⟨front, list, rfl, here, joint, inside, joint', rfl, listed⟩ := found_angled h
  have stops : Lookahead.operator ">" (.punct '>' joint' :: rest) = true := by
    simp [Lookahead.operator, Lookahead.operatorChars]
  have ends : EndsType (.punct '>' joint' :: rest) := by
    rintro _ ⟨⟩
    exact ⟨'>', joint', rfl, .inr rfl⟩
  have noComma : Lookahead.operator "," (.punct '>' joint' :: rest) = false := by
    simp [Lookahead.operator, Lookahead.operatorChars]
  have enough : (orderedArguments lifetimes types).length ≤
      (inside ++ .punct '>' joint' :: rest).length := by
    have some : ∀ list ∈ (orderedArguments lifetimes types).map Argument.tokens, list ≠ [] := by
      intro list member
      obtain ⟨argument, among, rfl⟩ := List.mem_map.mp member
      exact argument_tokens_ne_nil types_read argument among
    have counted := length_le_separatedBy comma trailing some
    rw [List.length_append, ← listed.length_eq]
    rw [List.length_map] at counted
    omega
  have run := separatedFrom_reads (argument_reads types_read) closed stops ends noComma enough
    listed
  have opened : (TokenReader.operator "<").run
      (.punct '<' joint :: (inside ++ .punct '>' joint' :: rest)) =
      some ((), inside ++ .punct '>' joint' :: rest) := by
    simp [Lookahead.operator, Lookahead.operatorChars, String.length]
  have listedRun : (separated (Lookahead.operator ">") "," (angledArgument inner)).run
      (inside ++ .punct '>' joint' :: rest) =
      some ((orderedArguments lifetimes types, trailing), .punct '>' joint' :: rest) := by
    simpa [separated] using run
  have closedRun :
      (TokenReader.operator ">").run (.punct '>' joint' :: rest) = some ((), rest) := by
    simp [Lookahead.operator, Lookahead.operatorChars, String.length]
  have separator : (skipOperator "::").run
      (front ++ .punct '<' joint :: (inside ++ .punct '>' joint' :: rest)) =
      some (marked, .punct '<' joint :: (inside ++ .punct '>' joint' :: rest)) := by
    cases marked with
    | false =>
      obtain rfl := found_nil.mp here
      simp [Lookahead.operator, Lookahead.operatorChars]
    | true =>
      rw [if_pos rfl, operator_separator] at here
      obtain ⟨joint, _, rfl, isNil⟩ := found_pair here
      obtain rfl := found_nil.mp isNil
      simp [Lookahead.operator, Lookahead.operatorChars, String.length]
  rw [List.append_assoc, List.cons_append, List.append_assoc, List.singleton_append]
  simp only [angledArguments, run_bind, separator, Option.bind_some, opened, listedRun, closedRun,
    run_pure]

theorem bareSegment_segmentReads (isName : IsBareName name) :
    SegmentReads inner { name, arguments := .none } := by
  intro found rest h ends
  obtain ⟨_, rfl, isNil⟩ := found_ident.mp h
  obtain rfl := found_nil.mp isNil
  exact bareSegment_reads isName ends

theorem appliedSegment_reads (isName : IsPathName name)
    (noWord : name ∉ ["super", "self", "crate"]) (types_read : ∀ type ∈ types, TypeReads inner type)
    (closed : orderedArguments lifetimes types = [] → trailing = true) :
    SegmentReads inner
      ⟨name, .angled marked (orderedArguments lifetimes types) trailing⟩ := by
  intro found rest h _
  obtain ⟨found, rfl, arguments⟩ := found_ident.mp h
  refine segment_reads isName noWord ?_ (angledArguments_read types_read closed arguments)
  obtain ⟨front, list, rfl, here, joint, inside, joint', rfl, listed⟩ := found_angled arguments
  have noEquals := arguments_start types_read listed joint' rest
  cases marked with
  | false =>
    obtain rfl := found_nil.mp here
    have noLessEqual : Lookahead.operator "<="
        (.punct '<' joint :: (inside ++ .punct '>' joint' :: rest)) = false := by
      rw [Lookahead.operator] at noEquals ⊢
      simp [Lookahead.operatorChars] at noEquals ⊢
      simp [noEquals]
    simp [StartsArguments, noLessEqual]
    simp [Lookahead.operator, Lookahead.operatorChars]
  | true =>
    rw [if_pos rfl, operator_separator] at here
    obtain ⟨joint, _, rfl, isNil⟩ := found_pair here
    obtain rfl := found_nil.mp isNil
    simp [StartsArguments, Lookahead.operator, Lookahead.operatorChars]

/-- A path is a type where it is read as a path and nothing goes on behind it. -/
theorem pathType_reads {plus : Bool} {tokens : List Token} {found : PathExpr}
    (noBracket : Lookahead.operator "<" tokens = false)
    (run : (path inner false).run tokens = some (found, rest)) (ends : EndsType rest) :
    (pathType inner plus []).run tokens = some (.path found, rest) := by
  have noPlus : Lookahead.operator "+" rest = false := ends.operator "+" rfl (by decide)
  have noMark : startsInvocation rest = false := by
    simp [startsInvocation, ends.operator "!" rfl (by decide)]
  simp only [pathType, run_bind, run_ahead, Option.bind_some, noBracket, Bool.false_eq_true,
    if_false, run_ite, run_remaining, run, noMark, noPlus, Bool.and_false, List.isEmpty_nil,
    if_true, run_pure]

/-- What starts with the name of a path is a type where it is one as a path. -/
theorem typeShape_name {plus : Bool} {tokens : List Token}
    (isName : IsPathName name) (noHash : Lookahead.operator "#" tokens = false) :
    (typeShape inner plus).run (.ident name :: tokens) =
      (pathType inner plus []).run (.ident name :: tokens) := by
  have noBinder : (optionalBinder inner).run (.ident name :: tokens) =
      some ([], .ident name :: tokens) := by
    simp [optionalBinder, Lookahead.word, isName.ne "for" (by decide) (by decide)]
  have notBuiltin : startsBuiltin (.ident name :: tokens) = false := by
    simp [startsBuiltin, Lookahead.rest, noHash]
  have noFunction : Lookahead.oneOf ["fn", "unsafe", "extern"] (.ident name :: tokens) = false := by
    simp [Lookahead.oneOf, isName.ne "fn" (by decide) (by decide),
      isName.ne "unsafe" (by decide) (by decide), isName.ne "extern" (by decide) (by decide)]
  have starts : Lookahead.pathName (.ident name :: tokens) = true := by
    by_cases reserved : name ∈ reservedWords
    · simp [Lookahead.pathName, Lookahead.oneOf, isName.2 reserved]
    · simp [Lookahead.pathName, Lookahead.name, reserved]
  simp only [typeShape, run_bind, run_remaining, Option.bind_some, noBinder, List.isEmpty_nil,
    Bool.not_true, Bool.false_and, Bool.false_eq_true, if_false, run_ite, notBuiltin, noFunction,
    starts, Bool.true_or, if_true, Lookahead.group]

theorem typeShape_separator {plus joint : Bool} {tokens : List Token} :
    (typeShape inner plus).run (.punct ':' true :: .punct ':' joint :: tokens) =
      (pathType inner plus []).run (.punct ':' true :: .punct ':' joint :: tokens) := by
  have rooted : atOperator ["::", "<"] (.punct ':' true :: .punct ':' joint :: tokens) = true := by
    simp [atOperator, Lookahead.operator, Lookahead.operatorChars]
  simp only [typeShape, optionalBinder, run_bind, run_remaining, run_skipWord, Lookahead.word,
    Bool.false_eq_true, if_false, Option.bind_some, run_pure, List.isEmpty_nil, Bool.not_true,
    Bool.false_and, run_ite, startsBuiltin, Lookahead.group, Lookahead.oneOf,
    Lookahead.pathName, Lookahead.name, Bool.or_self, Bool.false_or, rooted, if_true]

/-- A borrow, with what stands before its target. -/
theorem typeShape_borrow (plus joint mutable : Bool) (lifetime : Option String)
    {tokens : List Token} {target : TypeExpr} (noLifetime : Lookahead.lifetime tokens = false)
    (noMut : Lookahead.word "mut" tokens = false)
    (run : (inner.type false).run tokens = some (target, rest)) :
    (typeShape inner plus).run (.punct '&' joint :: ((lifetime.map Token.lifetime).getD [] ++
      ((if mutable then [.ident "mut"] else []) ++ tokens))) =
      some (.reference lifetime mutable target, rest) := by
  -- behind the lifetime, and behind the word
  have behind : (do
      let mutable ← skipWord "mut"
      return .reference lifetime mutable (← inner.type false) : TokenReader TypeExpr).run
        ((if mutable then [.ident "mut"] else []) ++ tokens) =
      some (.reference lifetime mutable target, rest) := by
    cases mutable with
    | true => simp [Lookahead.word, run]
    | false => simp [noMut, run]
  have lifetimes : optionalLifetime.run ((lifetime.map Token.lifetime).getD [] ++
      ((if mutable then [.ident "mut"] else []) ++ tokens)) =
      some (lifetime, (if mutable then [.ident "mut"] else []) ++ tokens) := by
    refine run_optionalLifetime lifetime ?_
    cases mutable with
    | true => rfl
    | false => exact noLifetime
  generalize (lifetime.map Token.lifetime).getD [] ++
    ((if mutable then [.ident "mut"] else []) ++ tokens) = all at lifetimes ⊢
  have borrowed : (referenceType inner).run (.punct '&' joint :: all) =
      some (.reference lifetime mutable target, rest) := by
    simpa [referenceType, Lookahead.operator, Lookahead.operatorChars, String.length, lifetimes]
      using behind
  have noPath : atOperator ["::", "<"] (.punct '&' joint :: all) = false := by
    simp [atOperator, Lookahead.operator, Lookahead.operatorChars]
  have noPointer : Lookahead.operator "*" (.punct '&' joint :: all) = false := by
    simp [Lookahead.operator, Lookahead.operatorChars]
  have isBorrow : Lookahead.operator "&" (.punct '&' joint :: all) = true := by
    simp [Lookahead.operator, Lookahead.operatorChars]
  simp only [typeShape, optionalBinder, run_bind, run_remaining, run_skipWord, Lookahead.word,
    Bool.false_eq_true, if_false, Option.bind_some, run_pure, List.isEmpty_nil, Bool.not_true,
    Bool.false_and, run_ite, startsBuiltin, Lookahead.group, Lookahead.oneOf, Lookahead.pathName,
    Lookahead.name, Bool.or_self, noPath, noPointer, isBorrow, if_true, borrowed]

end Inner

/-! ## Plain types -/

mutual

/-- Types of references and paths, whose names may have lifetimes and, behind these, types as
arguments. Of no arguments at all a comma stands behind the last, as it is read. -/
inductive TypeExpr.Plain : TypeExpr → Prop
  | reference {lifetime : Option String} (mutable : Bool) {target : TypeExpr}
      (named : ∀ name ∈ lifetime, IsName name) (inner : target.Plain) :
    TypeExpr.Plain (.reference lifetime mutable target)
  | path (rooted : Bool) {first : Segment} {others : List Segment} (head : first.Plain)
      (tail : ∀ s ∈ others, s.Plain) : TypeExpr.Plain (.path ⟨rooted, first :: others⟩)

inductive Segment.Plain : Segment → Prop
  | bare {name : String} (isName : IsPathName name) : Segment.Plain ⟨name, .none⟩
  | applied {name : String} {lifetimes : List String} {types : List TypeExpr} (marked : Bool)
      {trailing : Bool} (isName : IsPathName name) (noWord : name ∉ ["super", "self", "crate"])
      (named : ∀ name ∈ lifetimes, IsName name) (inside : ∀ type ∈ types, type.Plain)
      (closed : orderedArguments lifetimes types = [] → trailing = true) :
    Segment.Plain ⟨name, .angled marked (orderedArguments lifetimes types) trailing⟩

end

theorem Segment.Plain.isName {s : Segment} (h : s.Plain) : IsPathName s.name := by
  cases h with
  | bare isName => exact isName
  | applied _ isName => exact isName

/-- No hash stands behind the name of a segment. -/
theorem Segment.Plain.no_hash {s : Segment} (h : s.Plain) {others : List Segment}
    (ends : EndsType rest) {front tail : List Token} (here : Found s.arguments.tokens front)
    (there : Found (others.flatMap fun s => Token.operator "::" ++ s.tokens) tail) :
    Lookahead.operator "#" (front ++ tail ++ rest) = false := by
  cases h with
  | bare =>
    obtain rfl := found_nil.mp here
    cases others with
    | nil =>
      obtain rfl := found_nil.mp there
      exact ends.operator "#" rfl (by decide)
    | cons =>
      rw [List.flatMap_cons, operator_separator] at there
      obtain ⟨joint, _, rfl, _⟩ := found_pair there
      simp [Lookahead.operator, Lookahead.operatorChars]
  | applied marked =>
    obtain ⟨front, _, rfl, mark, joint, inside, joint', rfl, _⟩ := found_angled here
    cases marked with
    | false =>
      obtain rfl := found_nil.mp mark
      simp [Lookahead.operator, Lookahead.operatorChars]
    | true =>
      rw [if_pos rfl, operator_separator] at mark
      obtain ⟨joint, _, rfl, _⟩ := found_pair mark
      simp [Lookahead.operator, Lookahead.operatorChars]

theorem found_path {rooted : Bool} {first : Segment} {others : List Segment}
    (h : Found (PathExpr.tokens ⟨rooted, first :: others⟩) found) :
    ∃ front behind tail, found = front ++ .ident first.name :: (behind ++ tail) ∧
      Found (if rooted then Token.operator "::" else []) front ∧
      Found first.arguments.tokens behind ∧
      Found (others.flatMap fun s => Token.operator "::" ++ s.tokens) tail := by
  rw [PathExpr.tokens, segmentTokens_eq, List.map_cons, separatedBy_cons, List.flatMap_map] at h
  obtain ⟨front, _, rfl, mark, segments⟩ := found_append h
  obtain ⟨_, tail, rfl, here, there⟩ := found_append segments
  obtain ⟨behind, rfl, arguments⟩ := found_ident.mp here
  exact ⟨front, behind, tail, rfl, mark, arguments, there⟩

theorem TypeExpr.Plain.starts {type : TypeExpr} (h : type.Plain) (found : List Token)
    (isFound : Found type.tokens found) : StartsType found := by
  cases h with
  | reference =>
    rw [TypeExpr.tokens, operator_borrow, List.append_assoc, List.append_assoc] at isFound
    obtain ⟨joint, _, tail, rfl, _⟩ := found_punct isFound
    exact ⟨_, tail, rfl, .inr ⟨'&', joint, rfl, .inl rfl⟩⟩
  | path rooted head tail =>
    obtain ⟨front, behind, tail, rfl, mark, _⟩ := found_path isFound
    cases rooted with
    | false =>
      obtain rfl := found_nil.mp mark
      exact ⟨_, _, rfl, .inl ⟨_, rfl, head.isName⟩⟩
    | true =>
      rw [if_pos rfl, operator_separator] at mark
      obtain ⟨joint, _, rfl, _⟩ := found_pair mark
      exact ⟨_, _, rfl, .inr ⟨':', true, rfl, .inr rfl⟩⟩

theorem Legible.append {tokens tokens' : List Token} (h : Legible tokens) (h' : Legible tokens') :
    Legible (tokens ++ tokens') := by
  induction h with
  | nil => exact h'
  | ident isName _ ih => exact .ident isName ih
  | sign isSign _ ih => exact .sign isSign ih
  | joint isSign isSign' _ ih => exact .joint isSign isSign' ih
  | lifetime isName _ ih => exact .lifetime isName ih
  | group d inside _ _ ih => exact .group d inside ih

theorem legible_separator : Legible (Token.operator "::") :=
  .joint (by decide) (by decide) (.sign (by decide) .nil)

theorem legible_comma : Legible comma :=
  .sign (by decide) .nil

theorem legible_flatMap {α : Type} {f : α → List Token} {l : List α} (h : ∀ a ∈ l, Legible (f a)) :
    Legible (l.flatMap f) := by
  induction l with
  | nil => exact .nil
  | cons first rest ih =>
    obtain ⟨here, others⟩ := List.forall_mem_cons.mp h
    rw [List.flatMap_cons]
    exact here.append (ih others)

theorem legible_separatedBy {trailing : Bool} {lists : List (List Token)}
    (h : ∀ list ∈ lists, Legible list) : Legible (separatedBy comma trailing lists) := by
  induction lists with
  | nil => exact .nil
  | cons first rest ih =>
    obtain ⟨here, others⟩ := List.forall_mem_cons.mp h
    by_cases more : rest = [] → trailing = true
    · rw [separatedBy_followed more]
      exact (here.append legible_comma).append (ih others)
    · obtain ⟨rfl, last⟩ := Classical.not_imp.mp more
      rwa [separatedBy, if_neg last]

theorem legible_lifetime (isName : IsName name) : Legible (Token.lifetime name) :=
  .lifetime isName .nil

mutual

theorem TypeExpr.Plain.legible {type : TypeExpr} : type.Plain → Legible type.tokens
  | @TypeExpr.Plain.reference lifetime mutable target named inner => by
    have lifetimes : Legible ((lifetime.map Token.lifetime).getD []) := by
      cases lifetime with
      | none => exact .nil
      | some name => exact legible_lifetime (named name rfl)
    have word : Legible (if mutable then [.ident "mut"] else []) := by
      cases mutable with
      | true => exact .ident (by decide +kernel) .nil
      | false => exact .nil
    rw [TypeExpr.tokens, operator_borrow]
    exact .sign (by decide) ((lifetimes.append word).append inner.legible)
  | @TypeExpr.Plain.path rooted first others head tail => by
    have mark : Legible (if rooted then Token.operator "::" else []) := by
      cases rooted with
      | true => exact legible_separator
      | false => exact .nil
    rw [TypeExpr.tokens, PathExpr.tokens, segmentTokens_eq, List.map_cons, separatedBy_cons,
      List.flatMap_map]
    exact mark.append (head.legible.append
      (legible_flatMap fun s member => legible_separator.append (tail s member).legible))

theorem Segment.Plain.legible {s : Segment} : s.Plain → Legible s.tokens
  | .bare isName => .ident isName.1 .nil
  | @Segment.Plain.applied name lifetimes types marked trailing isName _ named inside _ => by
    have mark : Legible (if marked then Token.operator "::" else []) := by
      cases marked with
      | true => exact legible_separator
      | false => exact .nil
    have arguments : ∀ list ∈ (orderedArguments lifetimes types).map Argument.tokens,
        Legible list := by
      simp only [orderedArguments, List.map_append, List.map_map, List.forall_mem_append,
        List.forall_mem_map, Function.comp_apply]
      exact ⟨fun name member => legible_lifetime (named name member),
        fun type member => (inside type member).legible⟩
    rw [Segment.tokens, Arguments.tokens, ordered_tokens, angleBrackets, operator_less,
      operator_greater]
    exact .ident isName.1 (mark.append ((Legible.append (.sign (by decide) .nil)
      (legible_separatedBy arguments)).append (.sign (by decide) .nil)))

end

/-! ## Reading them again -/

theorem length_le_of_mem_separatedBy (trailing : Bool) {list : List Token}
    {lists : List (List Token)} (member : list ∈ lists) :
    list.length ≤ (separatedBy comma trailing lists).length := by
  induction lists with
  | nil => cases member
  | cons first rest ih =>
    by_cases more : rest = [] → trailing = true
    · rw [separatedBy_followed more, List.length_append, List.length_append]
      rcases List.mem_cons.mp member with rfl | later
      · omega
      · have behind := ih later
        omega
    · obtain ⟨rfl, last⟩ := Classical.not_imp.mp more
      obtain rfl := List.mem_singleton.mp member
      exact Nat.le_of_eq (by rw [separatedBy, if_neg last])

/-- The types inside a segment have fewer tokens than it. -/
theorem argument_length_lt {lifetimes : List String} {types : List TypeExpr} {type : TypeExpr}
    {marked trailing : Bool} (member : type ∈ types) :
    type.tokens.length <
      (Segment.tokens
        ⟨name, .angled marked (orderedArguments lifetimes types) trailing⟩).length := by
  have among : type.tokens ∈ (orderedArguments lifetimes types).map Argument.tokens :=
    List.mem_map.mpr ⟨.type type, List.mem_append_right _ (List.mem_map_of_mem member),
      by rw [Argument.tokens]⟩
  have shorter := length_le_of_mem_separatedBy trailing among
  rw [Segment.tokens, Arguments.tokens, ordered_tokens, angleBrackets]
  simp only [List.length_cons, List.length_append]
  omega

theorem Segment.Plain.reads {inner : Inner} {bound : Nat} {s : Segment} (h : s.Plain)
    (types_read : ∀ type : TypeExpr, type.Plain → type.tokens.length < bound → TypeReads inner type)
    (enough : s.tokens.length ≤ bound) : SegmentReads inner s := by
  cases h with
  | bare isName => exact bareSegment_segmentReads isName.bare
  | applied marked isName noWord _ inside closed =>
    refine appliedSegment_reads isName noWord (fun type member => ?_) closed
    exact types_read type (inside type member)
      (Nat.lt_of_lt_of_le (argument_length_lt member) enough)

theorem segment_length_le (rooted : Bool) {segments : List Segment} {s : Segment}
    (member : s ∈ segments) :
    s.tokens.length ≤ (PathExpr.tokens ⟨rooted, segments⟩).length := by
  cases segments with
  | nil => cases member
  | cons first others =>
    rw [PathExpr.tokens, segmentTokens_eq, List.map_cons, separatedBy_cons, List.length_append,
      List.length_append]
    rcases List.mem_cons.mp member with rfl | later
    · omega
    · have among : Token.operator "::" ++ s.tokens ∈
          (others.map Segment.tokens).map (Token.operator "::" ++ ·) :=
        List.mem_map_of_mem (List.mem_map_of_mem later)
      have shorter := (List.sublist_flatten_of_mem among).length_le
      rw [← List.flatMap_def, List.length_append] at shorter
      omega

/-- A plain type is read from what it is written as, by readers for as many levels as it has
tokens. -/
theorem TypeExpr.Plain.reads (limit : Nat) : ∀ (depth : Nat) {type : TypeExpr}, type.Plain →
    type.tokens.length < depth → TypeReads (innerWithin limit depth) type
  | 0, _, _, enough => absurd enough (Nat.not_lt_zero _)
  | depth + 1, type, plain, enough => by
    refine ⟨plain.starts, fun plus found rest h ends => ?_⟩
    have inside : ∀ type : TypeExpr, type.Plain → type.tokens.length < depth →
        TypeReads (innerWithin limit depth) type := fun _ plain => reads limit depth plain
    rw [innerWithin]
    dsimp only
    rw [run_later]
    cases plain with
    | @reference lifetime mutable target named inner =>
      rw [TypeExpr.tokens, operator_borrow, List.append_assoc, List.append_assoc,
        List.singleton_append] at h enough
      obtain ⟨joint, _, _, rfl, isBehind⟩ := found_punct h
      obtain ⟨lifetimes, _, rfl, isLifetime, further⟩ := found_append isBehind
      obtain ⟨words, tail, rfl, isWord, isTarget⟩ := found_append further
      obtain rfl := found_lifetimes isLifetime
      obtain rfl := found_word isWord
      have shorter : target.tokens.length < depth := by
        simp only [List.length_append, List.length_cons] at enough
        omega
      have reads := inside target inner shorter
      have starts := reads.starts tail isTarget
      have noMut : Lookahead.word "mut" (tail ++ rest) = false :=
        starts.word (by decide) (by decide)
      have run := typeShape_borrow plus joint mutable lifetime starts.lifetime
        noMut (reads.reads false tail rest isTarget ends)
      simpa using run
    | @path rooted first others head tail =>
      rw [TypeExpr.tokens] at h enough
      have segments : ∀ s ∈ first :: others, SegmentReads (innerWithin limit depth) s := by
        intro s member
        have sPlain : s.Plain := List.forall_mem_cons.mpr ⟨head, tail⟩ s member
        refine sPlain.reads inside ?_
        have shorter := segment_length_le rooted member
        omega
      have run := path_reads segments ends h
      obtain ⟨front, behind, tail, rfl, mark, arguments, further⟩ := found_path h
      cases rooted with
      | false =>
        obtain rfl := found_nil.mp mark
        have noBracket : Lookahead.operator "<"
            ([] ++ .ident first.name :: (behind ++ tail) ++ rest) = false := rfl
        have noHash := head.no_hash ends arguments further
        exact (typeShape_name head.isName noHash).trans (pathType_reads noBracket run ends)
      | true =>
        rw [if_pos rfl, operator_separator] at mark
        obtain ⟨joint, _, rfl, isNil⟩ := found_pair mark
        obtain rfl := found_nil.mp isNil
        refine typeShape_separator.trans (pathType_reads ?_ run ends)
        simp [Lookahead.operator, Lookahead.operatorChars]

theorem length_le_countAll (tokens : List Token) : tokens.length ≤ Token.countAll tokens := by
  induction tokens with
  | nil => exact Nat.le_refl _
  | cons first rest ih =>
    have one : 1 ≤ Token.count first := by cases first <;> simp [Token.count]
    rw [Token.countAll, List.length_cons]
    omega

/-- The readers inside some tokens go deep enough for what these tokens are. -/
theorem innerOf_eq (found : List Token) :
    ∃ limit depth, innerOf found = innerWithin limit (depth + 1) ∧
      Token.countAll found < depth + 1 :=
  ⟨_, 4 * Token.countAll found + 3, rfl, by omega⟩

theorem readAll_eq_some {α : Type} {reader : TokenReader α} {value : α}
    (h : reader.run found = some (value, [])) : readAll reader found = some value := by
  rw [readAll, run_within h]
  rfl

theorem endsType_nil : EndsType [] := nofun

/-- A plain type that is written is read back. -/
theorem TypeExpr.Plain.read_back {type : TypeExpr} (plain : type.Plain) :
    ∃ found, scan? (written type.tokens).toList = some found ∧
      TypeExpr.ofTokens? found = some type := by
  obtain ⟨found, scanned, isFound⟩ := scan?_written plain.legible
  refine ⟨found, scanned, readAll_eq_some ?_⟩
  obtain ⟨limit, depth, inner, enough⟩ := innerOf_eq found
  have shorter : type.tokens.length < depth + 1 := by
    rw [isFound.length_eq]
    exact Nat.lt_of_le_of_lt (length_le_countAll found) enough
  have reads := plain.reads limit (depth + 1) shorter
  rw [inner]
  simpa using reads.reads true found [] isFound endsType_nil

end MiddlewareStack.Source
