import Mathlib.Data.List.TakeWhile
import MiddlewareStack.Proofs.EmittedPaths
import MiddlewareStack.Text.PathSyntax

/-!
# Configured paths in source text

What a configuration takes for a path is identifiers with separators between them, and one may stand
in front. An identifier may have letters that no name in source text has. Then the text has no
tokens at all; otherwise its tokens are those of the path of these names (`scan?_markedText`). What
is read from them is this path, unless the text starts like a type that is none
(`readType?_markedText`).
-/

namespace MiddlewareStack

namespace Text

/-- The written path of some segments, behind a separator or not. -/
def markedText (rooted : Bool) (names : List String) : String :=
  (if rooted then "::" else "") ++ pathText names

theorem pathText_ofList (segments : List (List Char)) :
    (pathText (segments.map String.ofList)).toList = joinSegments segments := by
  induction segments with
  | nil => rfl
  | cons first others ih =>
    cases others with
    | nil => simp [pathText, joinSegments]
    | cons second others =>
      rw [List.map_cons, List.map_cons, pathText_cons_cons, ← List.map_cons, ih,
        String.toList_ofList]
      rfl

theorem dropLeadingSeparator_eq (cs : List Char) :
    ∃ rooted : Bool, cs = (if rooted then [':', ':'] else []) ++ dropLeadingSeparator cs := by
  unfold dropLeadingSeparator
  split
  · exact ⟨true, rfl⟩
  · exact ⟨false, rfl⟩

/-- What counts as a path is one of identifiers. -/
theorem exists_markedText_of_isPath {text : String} (h : isPath text.toList) :
    ∃ rooted first others, text = markedText rooted (first :: others) ∧
      ∀ name ∈ first :: others, isIdentifier name.toList := by
  obtain ⟨rooted, split⟩ := dropLeadingSeparator_eq text.toList
  simp only [isPath, Bool.and_eq_true, List.all_eq_true] at h
  obtain ⟨first, others, segments⟩ :=
    List.exists_cons_of_ne_nil (splitSegments_ne_nil (dropLeadingSeparator text.toList))
  refine ⟨rooted, String.ofList first, others.map String.ofList, ?_, ?_⟩
  · rw [← String.toList_inj, split, ← joinSegments_splitSegments (dropLeadingSeparator text.toList),
      segments, ← pathText_ofList, List.map_cons, markedText, String.toList_append]
    cases rooted <;> rfl
  · rw [← List.map_cons, ← segments, List.forall_mem_map]
    intro segment member
    rw [String.toList_ofList]
    exact h.2 segment member

end Text

namespace Source

variable {c : Char} {cs text : List Char} {name first : String} {names others : List String}
  {groups : OpenGroups} {read : List Token}

/-! ## Characters that are in no name -/

/-- A letter or digit beyond ASCII at which no name starts. -/
structure IsStray (c : Char) : Prop where
  letter : Text.isAlphanumeric c
  noStart : isNameStart c = false
  beyond : 0x80 ≤ c.toNat

theorem isStray_of_alphabetic (letter : Text.isAlphabetic c ∨ c = '_')
    (noStart : isNameStart c = false) : IsStray c := by
  rcases letter with letter | rfl
  · refine ⟨by simp [Text.isAlphanumeric, letter], noStart, Nat.le_of_not_lt fun ascii => ?_⟩
    simp [isNameStart, Text.isIdentifierStart, Text.isAlphabetic, ascii] at letter noStart
    simp [letter] at noStart
  · cases noStart

theorem isStray_of_alphanumeric (letter : Text.isAlphanumeric c ∨ c = '_')
    (stops : isNameContinue c = false) : IsStray c := by
  have noStart : isNameStart c = false := by
    cases start : isNameStart c with
    | false => rfl
    | true => rw [isNameContinue_of_isNameStart start] at stops; cases stops
  rcases letter with letter | rfl
  · refine ⟨letter, noStart, Nat.le_of_not_lt fun ascii => ?_⟩
    simp [isNameContinue, Text.isIdentifierContinue, Text.isAlphanumeric, Text.isAlphabetic,
      Text.isNumeric, Char.isAlphanum, ascii] at letter stops
    simp [stops] at letter
  · cases stops

theorem IsStray.ne (h : IsStray c) {x : Char} (ascii : x.toNat < 0x80) : c ≠ x := by
  rintro rfl
  exact absurd h.beyond (Nat.not_le.mpr ascii)

theorem IsStray.not_isBlank (h : IsStray c) : Text.isBlank c = false := by
  have none : ∀ code ∈ blankCodes, Text.isAlphanumeric (Char.ofNat code) = false := by
    decide +kernel
  cases blank : Text.isBlank c with
  | false => rfl
  | true =>
    have absent := none _ (mem_blankCodes_of_isBlank blank)
    rw [Char.ofNat_toNat, h.letter] at absent
    cases absent

theorem IsStray.not_isDigit (h : IsStray c) : c.isDigit = false := by
  cases digit : c.isDigit with
  | false => rfl
  | true =>
    simp only [Char.isDigit, Bool.and_eq_true, decide_eq_true_eq, UInt32.le_iff_toNat_le] at digit
    exact absurd (Nat.le_trans h.beyond digit.2) (by decide)

theorem IsStray.startsPunctuation (h : IsStray c) : startsPunctuation (c :: text) = false := by
  have ascii : ∀ x ∈ "~!@#$%^&*-=+|;:,<.>/?'".toList, x.toNat < 0x80 :=
    List.all_iff_forall_prop.mp (by decide)
  have noSign : isPunctuation c = false := by
    rw [isPunctuation, decide_eq_false_iff_not]
    exact fun member => h.ne (ascii c member) rfl
  unfold Source.startsPunctuation
  split <;> simp_all

/-- Nothing at all starts with such a character. -/
theorem IsStray.leaf? (h : IsStray c) : leaf? (c :: text) = none := by
  have noR : c ≠ 'r' := h.ne (by decide)
  have noB : c ≠ 'b' := h.ne (by decide)
  have noC : c ≠ 'c' := h.ne (by decide)
  have noQuote : c ≠ '"' := h.ne (by decide)
  have noTick : c ≠ '\'' := h.ne (by decide)
  have noMark : errorMark.isPrefixOf (c :: text) = false :=
    not_errorMark fun behind same => h.ne (x := '(') (by decide) (List.cons.inj same).1
  have noText : textEnd? (c :: text) = none := by
    unfold textEnd?
    split <;> simp_all
  have noNumber : numberEnd? (c :: text) = none := by simp [numberEnd?, h.not_isDigit]
  have noSign : punctuation? (c :: text) = none := by simp [punctuation?, h.startsPunctuation]
  have noName : name? (c :: text) = none := by
    rw [name?_eq_plainName? fun rest same => noR (List.cons.inj same).1]
    simp [plainName?, h.noStart]
  simp [Source.leaf?, literalEnd?, noMark, noText, noNumber, noSign, noName]

/-! ## Scans without an end -/

/-- No scan gets over this state. -/
def ScanState.Fails (s : ScanState) : Prop :=
  ∀ bound > s.text.length, scanFrom bound s.groups s.read s.text = none

theorem ScanState.Reaches.fails {a b : ScanState} (h : a.Reaches b) (fails : b.Fails) :
    a.Fails := by
  intro bound enough
  obtain ⟨bound', enough', same⟩ := h bound enough
  rw [same, fails bound' enough']

open ScanState

theorem IsStray.fails (h : IsStray c) : Fails ⟨groups, read, c :: text⟩ := by
  intro bound enough
  have noSlash : c ≠ '/' := h.ne (by decide)
  obtain ⟨noOpening, noClosing⟩ := not_delimiter (c := c) fun d =>
    ⟨h.ne (by cases d <;> decide), h.ne (by cases d <;> decide)⟩
  have noLexeme : lexeme? (c :: text) = none := by
    simp [lexeme?, comment?_eq_none noSlash, noOpening, noClosing, h.leaf?]
  cases bound with
  | zero => exact absurd enough (Nat.not_lt_zero _)
  | succ bound => simp [scanFrom, h.not_isBlank, comment?_eq_none noSlash, noLexeme]

/-- Of an identifier that is no name only the front may be read. -/
theorem fails_identifier (identifier : Text.isIdentifier cs) (noName : ¬IsName (String.ofList cs)) :
    Fails ⟨groups, read, cs ++ text⟩ := by
  cases cs with
  | nil => cases identifier
  | cons c rest =>
    simp only [Text.isIdentifier, Text.isIdentifierTail, List.head?_cons, Option.any_some,
      Bool.and_eq_true, Bool.or_eq_true, beq_iff_eq, List.all_cons, List.all_eq_true] at identifier
    obtain ⟨head, _, _, tail⟩ := identifier
    cases start : isNameStart c with
    | false => exact (isStray_of_alphabetic head start).fails
    | true =>
      -- the characters up to the first that is in no name are a name
      cases behind : rest.dropWhile isNameContinue with
      | nil =>
        refine absurd (isName_iff.mpr (.inl ?_)) noName
        rw [String.toList_ofList]
        exact ⟨c, rest, rfl, start, List.dropWhile_eq_nil_iff.mp behind⟩
      | cons x others =>
        have stops : isNameContinue x = false := by
          simpa [behind] using List.head?_dropWhile_not isNameContinue rest
        have stray : IsStray x := isStray_of_alphanumeric
          (tail x ((List.dropWhile_suffix _).subset (by rw [behind]; exact List.mem_cons_self)))
          stops
        have isName : IsName (String.ofList (c :: rest.takeWhile isNameContinue)) := by
          refine isName_iff.mpr (.inl ?_)
          rw [String.toList_ofList]
          exact ⟨c, _, rfl, start, List.all_eq_true.mp List.all_takeWhile⟩
        have ends : EndsWord (x :: others ++ text) := by
          rintro _ ⟨⟩
          exact ⟨stops, stray.ne (by decide), stray.ne (by decide), stray.ne (by decide)⟩
        have split : c :: rest ++ text =
            (String.ofList (c :: rest.takeWhile isNameContinue)).toList ++ (x :: others ++ text) := by
          rw [String.toList_ofList, ← behind, ← List.append_assoc]
          change _ = c :: (rest.takeWhile _ ++ rest.dropWhile _) ++ text
          rw [List.takeWhile_append_dropWhile]
        rw [split]
        exact (reaches_name isName ends).fails stray.fails

theorem pathText_cons (first : String) (others : List String) :
    ∃ behind, (Text.pathText (first :: others)).toList = first.toList ++ behind := by
  cases others with
  | nil => exact ⟨[], by simp [Text.pathText]⟩
  | cons second others => exact ⟨_, Text.pathText_cons_cons first second others⟩

theorem reaches_separator :
    ∃ joint, Reaches ⟨groups, read, ':' :: ':' :: text⟩
      ⟨groups, .punct ':' joint :: .punct ':' true :: read, text⟩ :=
  ⟨_, (reaches_sign isSign_colon).trans (reaches_sign isSign_colon)⟩

/-- A path with an identifier that is no name cannot be read. -/
theorem fails_pathText (identifiers : ∀ name ∈ first :: others, Text.isIdentifier name.toList)
    (stray : ¬∀ name ∈ first :: others, IsName name) :
    Fails ⟨groups, read, (Text.pathText (first :: others)).toList⟩ := by
  induction others generalizing first read with
  | nil =>
    have noName : ¬IsName first := by simpa using stray
    have whole : (Text.pathText [first]).toList = first.toList ++ [] := by simp [Text.pathText]
    rw [whole]
    exact fails_identifier (identifiers first List.mem_cons_self) (by rwa [String.ofList_toList])
  | cons second others ih =>
    obtain ⟨identifier, later⟩ := List.forall_mem_cons.mp identifiers
    rw [Text.pathText_cons_cons]
    by_cases isName : IsName first
    · have behind : ¬∀ name ∈ second :: others, IsName name := fun all =>
        stray (List.forall_mem_cons.mpr ⟨isName, all⟩)
      obtain ⟨_, separator⟩ := reaches_separator
      exact ((reaches_name isName (endsWord_of_closer (by decide))).trans separator).fails
        (ih later behind)
    · exact fails_identifier identifier (by rwa [String.ofList_toList])

/-! ## Paths that are read -/

/-- The path of some names without arguments, behind a separator or not. -/
def markedPath (rooted : Bool) (names : List String) : PathExpr :=
  ⟨rooted, names.map bareSegment⟩

variable {rooted : Bool} {found : List Token}

theorem markedText_toList (rooted : Bool) (names : List String) :
    (Text.markedText rooted names).toList =
      (if rooted then [':', ':'] else []) ++ (Text.pathText names).toList := by
  rw [Text.markedText, String.toList_append]
  cases rooted <;> rfl

theorem markedPath_tokens (rooted : Bool) (names : List String) :
    (markedPath rooted names).tokens =
      (if rooted then Token.operator "::" else []) ++ (barePath names).tokens := by
  simp [markedPath, barePath, PathExpr.tokens]

/-- The text of a path has its tokens, with a separator in front or not. -/
theorem markedPath_spelled (named : ∀ name ∈ first :: others, IsName name) :
    Legible (markedPath rooted (first :: others)).tokens ∧
      Spells (marksOf (markedPath rooted (first :: others)).tokens)
        (Text.markedText rooted (first :: others)).toList := by
  have legible := barePath_legible named
  have spelled := spells_pathText named
  rw [markedPath_tokens, markedText_toList]
  cases rooted with
  | false => exact ⟨legible, spelled⟩
  | true =>
    exact ⟨.joint isSign_colon isSign_colon (.sign isSign_colon legible),
      .sign isSign_colon (fun _ => ⟨':', rfl, isSign_colon⟩)
        (.sign isSign_colon (by simp) spelled)⟩

theorem head_markedText (identifier : Text.isIdentifier first.toList) :
    (Text.markedText rooted (first :: others)).toList.head? ≠ some '\ufeff' := by
  rw [markedText_toList]
  cases rooted with
  | true => simp
  | false =>
    obtain ⟨behind, text⟩ := pathText_cons first others
    cases chars : first.toList with
    | nil =>
      rw [chars] at identifier
      cases identifier
    | cons c rest =>
      have noLetter : (Text.isAlphabetic '\ufeff' || '\ufeff' == '_') = false := by decide +kernel
      rw [text, chars]
      rintro ⟨⟩
      rw [chars] at identifier
      simp only [Text.isIdentifier, List.head?_cons, Option.any_some, noLetter,
        Bool.false_and] at identifier
      cases identifier

/-- If a configured path is read, then its identifiers are names, and the tokens are those of its
path. -/
theorem scan?_markedText (identifiers : ∀ name ∈ first :: others, Text.isIdentifier name.toList)
    (scanned : scan? (Text.markedText rooted (first :: others)).toList = some found) :
    (∀ name ∈ first :: others, IsName name) ∧
      Found (markedPath rooted (first :: others)).tokens found := by
  by_cases named : ∀ name ∈ first :: others, IsName name
  · obtain ⟨legible, spelled⟩ : Legible (markedPath rooted (first :: others)).tokens ∧ _ :=
      markedPath_spelled named
    obtain ⟨again, scanned', isFound⟩ := scan?_spelled legible spelled
    rw [scanned, Option.some.injEq] at scanned'
    exact ⟨named, scanned' ▸ isFound⟩
  · have fails : Fails ⟨[], [], (Text.markedText rooted (first :: others)).toList⟩ := by
      rw [markedText_toList]
      cases rooted with
      | false => exact fails_pathText identifiers named
      | true =>
        obtain ⟨_, separator⟩ := reaches_separator
        exact separator.fails (fails_pathText identifiers named)
    rw [scan?, dropOrderMark_eq (head_markedText (identifiers first List.mem_cons_self)),
      fails _ (Nat.lt_succ_self _)] at scanned
    cases scanned

section Reading

open TokenReader

variable {rest tail : List Token} {inner : Inner} {type : TypeExpr}

/-! ## Reading the names of a path -/

/-- A name that is read as a segment may stand in a path, and is all of the segment. -/
theorem segment_bare {read : Segment × List Token} (isName : IsName name) (ends : EndsSegment tail)
    (run : (segment inner false).run (.ident name :: tail) = some read) :
    IsBareName name ∧ read = (bareSegment name, tail) := by
  by_cases bare : name ∈ reservedWords → name ∈ "try" :: Lookahead.pathWords
  · rw [bareSegment_reads ⟨isName, bare⟩ ends, Option.some.injEq] at run
    exact ⟨⟨isName, bare⟩, run.symm⟩
  · obtain ⟨reserved, other⟩ := Classical.not_imp.mp bare
    simp only [Lookahead.pathWords, List.mem_cons, List.not_mem_nil, or_false, not_or] at other
    obtain ⟨noTry, noSuper, noSelf, noType, noCrate⟩ := other
    simp [segment, Lookahead.oneOf, Lookahead.name, Lookahead.word, reserved, noTry, noSuper,
      noSelf, noType, noCrate] at run

/-- The words of other types start no path. -/
theorem IsBareName.not_mem_words {name : String} (h : IsBareName name) :
    name ∉ ["_", "dyn", "impl"] := by
  have all : ∀ word ∈ ["_", "dyn", "impl"],
      word ∈ reservedWords ∧ word ∉ "try" :: Lookahead.pathWords := by decide
  exact fun word => (all name word).2 (h.2 (all name word).1)

/-- Names, each behind a separator. -/
def separatedNames (names : List String) : List Token :=
  names.flatMap fun name => Token.operator "::" ++ [.ident name]

theorem found_separatedNames_cons (h : Found (separatedNames (name :: names)) found) :
    ∃ joint rest, found = .punct ':' true :: .punct ':' joint :: .ident name :: rest ∧
      Found (separatedNames names) rest := by
  rw [separatedNames, List.flatMap_cons, operator_separator] at h
  obtain ⟨joint, _, rfl, further⟩ := found_pair h
  obtain ⟨rest, rfl, isFound⟩ := found_ident.mp further
  exact ⟨joint, rest, rfl, isFound⟩

/-- The tokens of a path start with its first name, or with a separator and then the name. -/
theorem found_markedPath (h : Found (markedPath rooted (first :: others)).tokens found) :
    ∃ tail, Found (separatedNames others) tail ∧
      (rooted = false ∧ found = .ident first :: tail ∨
        rooted = true ∧ ∃ joint,
          found = .punct ':' true :: .punct ':' joint :: .ident first :: tail) := by
  obtain ⟨front, behind, tail, rfl, mark, arguments, names⟩ := found_path h
  obtain rfl := found_nil.mp arguments
  rw [List.flatMap_map] at names
  refine ⟨tail, names, ?_⟩
  cases rooted with
  | false =>
    obtain rfl := found_nil.mp mark
    exact .inl ⟨rfl, rfl⟩
  | true =>
    rw [if_pos rfl, operator_separator] at mark
    obtain ⟨joint, _, rfl, isNil⟩ := found_pair mark
    obtain rfl := found_nil.mp isNil
    exact .inr ⟨rfl, joint, rfl⟩

theorem names_endsSegment (h : Found (separatedNames names) tail) : EndsSegment tail := by
  cases names with
  | nil =>
    obtain rfl := found_nil.mp h
    exact endsType_nil.segment
  | cons second others =>
    obtain ⟨joint, rest, rfl, _⟩ := found_separatedNames_cons h
    simp [EndsSegment, Lookahead.operator, Lookahead.operatorChars]

/-- The names that are read behind a first one may all stand in a path. -/
theorem names_bare {bound : List Token} {read : List Segment × List Token}
    (areNames : ∀ name ∈ names, IsName name) (h : Found (separatedNames names) tail)
    (run : (whileAheadFrom continuesPath (do TokenReader.operator "::"; segment inner false)
      bound).run tail = some read) : ∀ name ∈ names, IsBareName name := by
  induction names generalizing tail bound read with
  | nil => exact List.forall_mem_nil _
  | cons second others ih =>
    obtain ⟨isName, later⟩ := List.forall_mem_cons.mp areNames
    obtain ⟨joint, rest, rfl, isFound⟩ := found_separatedNames_cons h
    have goesOn : continuesPath (.punct ':' true :: .punct ':' joint :: .ident second :: rest) := by
      simp [continuesPath, Lookahead.operator, Lookahead.operatorChars, Lookahead.group]
    cases bound with
    | nil => simp [whileAheadFrom, goesOn] at run
    | cons _ bound =>
      have separator : (TokenReader.operator "::").run
          (.punct ':' true :: .punct ':' joint :: .ident second :: rest) =
          some ((), .ident second :: rest) := by
        simp [Lookahead.operator, Lookahead.operatorChars, String.length]
      simp only [whileAheadFrom, run_bind, run_ahead, Option.bind_some, goesOn, if_true, run_ite,
        separator] at run
      obtain ⟨⟨segment, further⟩, readSegment, run⟩ := Option.bind_eq_some_iff.mp run
      obtain ⟨bare, same⟩ := segment_bare isName (names_endsSegment isFound) readSegment
      cases same
      obtain ⟨behind, readBehind, _⟩ := Option.bind_eq_some_iff.mp run
      exact List.forall_mem_cons.mpr ⟨bare, ih later isFound readBehind⟩

theorem path_bare {read : PathExpr × List Token} (areNames : ∀ name ∈ first :: others, IsName name)
    (h : Found (markedPath rooted (first :: others)).tokens found)
    (run : (path inner false).run found = some read) :
    ∀ name ∈ first :: others, IsBareName name := by
  obtain ⟨isName, later⟩ := List.forall_mem_cons.mp areNames
  obtain ⟨tail, isFound, start⟩ := found_markedPath h
  have separator : (skipOperator "::").run found = some (rooted, .ident first :: tail) := by
    rcases start with ⟨rfl, rfl⟩ | ⟨rfl, joint, rfl⟩ <;>
      simp [Lookahead.operator, Lookahead.operatorChars, String.length]
  simp only [path, run_bind, separator, Option.bind_some] at run
  obtain ⟨⟨segment, further⟩, readSegment, run⟩ := Option.bind_eq_some_iff.mp run
  obtain ⟨bare, same⟩ := segment_bare isName (names_endsSegment isFound) readSegment
  cases same
  obtain ⟨behind, readBehind, _⟩ := Option.bind_eq_some_iff.mp run
  rw [whileAhead, run_bind, run_remaining, Option.bind_some] at readBehind
  exact List.forall_mem_cons.mpr ⟨bare, names_bare later isFound readBehind⟩

/-! ## Reading a type -/

/-- The type stands for no path: it is a list of bounds, or kept as its tokens. -/
def TypeExpr.IsPathless : TypeExpr → Prop
  | .traitObject .. | .implTrait .. | .verbatim _ => True
  | _ => False

theorem names_start (h : Found (separatedNames names) tail) :
    tail = [] ∨ ∃ joint rest, tail = .punct ':' true :: .punct ':' joint :: rest := by
  cases names with
  | nil => exact .inl (found_nil.mp h)
  | cons =>
    obtain ⟨joint, rest, rfl, _⟩ := found_separatedNames_cons h
    exact .inr ⟨joint, _, rfl⟩

/-- Behind these words, a separator or nothing does not go on with a function. -/
theorem functionPointer_eq_none (starts : first ∈ ["fn", "unsafe", "extern"])
    (h : Found (separatedNames names) tail) :
    (functionPointer inner []).run (.ident first :: tail) = none := by
  simp only [List.mem_cons, List.not_mem_nil, or_false] at starts
  rcases names_start h with rfl | ⟨joint, rest, rfl⟩ <;> rcases starts with rfl | rfl | rfl <;>
    simp [functionPointer, optionalWord, optionalAbi, Lookahead.word, Lookahead.string, inside,
      TokenReader.content, Lookahead.group, TokenReader.word]

theorem dynType_pathless {plus : Bool} {read : TypeExpr × List Token} {tokens : List Token}
    (run : (dynType inner plus).run tokens = some read) : read.1.IsPathless := by
  simp only [dynType, run_bind, run_remaining, Option.bind_some] at run
  obtain ⟨_, _, run⟩ := Option.bind_eq_some_iff.mp run
  obtain ⟨⟨pointer, _⟩, _, run⟩ := Option.bind_eq_some_iff.mp run
  obtain ⟨_, _, run⟩ := Option.bind_eq_some_iff.mp run
  cases pointer with
  | true =>
    rw [if_pos rfl, run_bind] at run
    obtain ⟨_, _, same⟩ := Option.bind_eq_some_iff.mp run
    cases same
    trivial
  | false =>
    cases run
    trivial

theorem implType_pathless {plus : Bool} {read : TypeExpr × List Token} {tokens : List Token}
    (run : (implType inner plus).run tokens = some read) : read.1.IsPathless := by
  simp only [implType, run_bind] at run
  obtain ⟨_, _, run⟩ := Option.bind_eq_some_iff.mp run
  obtain ⟨_, _, same⟩ := Option.bind_eq_some_iff.mp run
  cases same
  trivial

/-- A type that starts with a word that starts no path is read as no path, if at all. -/
theorem reserved_type {plus : Bool} {read : TypeExpr × List Token} (reserved : first ∈ reservedWords)
    (other : first ∉ Lookahead.pathWords) (h : Found (separatedNames names) tail)
    (run : (typeShape inner plus).run (.ident first :: tail) = some read) :
    first ∈ ["_", "dyn", "impl"] ∧ read.1.IsPathless := by
  have noBinder : first ≠ "for" → (optionalBinder inner).run (.ident first :: tail) =
      some ([], .ident first :: tail) := fun noFor => by
    simp [optionalBinder, Lookahead.word, noFor]
  have isFor : first ≠ "for" := by
    rintro rfl
    have noBracket := (names_endsSegment h).1
    have stops : (optionalBinder inner).run (.ident "for" :: tail) = none := by
      simp [optionalBinder, Lookahead.word, noBracket]
    simp [typeShape, stops] at run
  have notBuiltin : startsBuiltin (.ident first :: tail) = false := by
    rcases names_start h with rfl | ⟨joint, rest, rfl⟩ <;>
      simp [startsBuiltin, Lookahead.rest, Lookahead.operator, Lookahead.operatorChars]
  have noPath : (Lookahead.pathName (.ident first :: tail) ||
      atOperator ["::", "<"] (.ident first :: tail)) = false := by
    simp [Lookahead.pathName, Lookahead.name, Lookahead.oneOf, reserved, other, atOperator,
      Lookahead.operator, Lookahead.operatorChars]
  have noSign : ∀ text ∈ ["*", "&", "!"], Lookahead.operator text (.ident first :: tail) = false := by
    simp [Lookahead.operator, Lookahead.operatorChars]
  simp only [typeShape, run_bind, run_remaining, Option.bind_some, noBinder isFor,
    List.isEmpty_nil, Bool.not_true, Bool.false_and, Bool.false_eq_true, if_false, run_ite,
    notBuiltin, Lookahead.group, noPath, noSign "*" (by decide), noSign "&" (by decide),
    noSign "!" (by decide)] at run
  split at run
  · next starts =>
    rw [functionPointer_eq_none (by simpa [Lookahead.oneOf] using starts) h] at run
    cases run
  · split at run
    · next isDyn => exact ⟨by simp_all [Lookahead.word], dynType_pathless run⟩
    · split at run
      · next isImpl => exact ⟨by simp_all [Lookahead.word], implType_pathless run⟩
      · split at run
        · next isBlank =>
          obtain ⟨_, _, same⟩ := Option.bind_eq_some_iff.mp run
          cases same
          exact ⟨by simp_all [Lookahead.word], trivial⟩
        · simp [Lookahead.lifetime] at run

/-- Where a path is a type, its names may stand in it, and nothing is behind it. -/
theorem pathType_marked {plus : Bool} {read : TypeExpr × List Token}
    (areNames : ∀ name ∈ first :: others, IsName name)
    (h : Found (markedPath rooted (first :: others)).tokens found)
    (run : (pathType inner plus []).run found = some read) :
    (∀ name ∈ first :: others, IsBareName name) ∧
      read = (.path (markedPath rooted (first :: others)), []) := by
  have noBracket : Lookahead.operator "<" found = false := by
    obtain ⟨tail, _, ⟨_, rfl⟩ | ⟨_, joint, rfl⟩⟩ := found_markedPath h <;>
      simp [Lookahead.operator, Lookahead.operatorChars]
  cases isPath : (path inner false).run found with
  | none => simp [pathType, noBracket, isPath] at run
  | some =>
    have bare := path_bare areNames h isPath
    have segments : ∀ s ∈ bareSegment first :: others.map bareSegment, SegmentReads inner s := by
      rw [← List.map_cons]
      exact List.forall_mem_map.mpr fun name member => bareSegment_segmentReads (bare name member)
    have reads := path_reads segments endsType_nil h
    rw [List.append_nil] at reads
    rw [pathType_reads noBracket reads endsType_nil, Option.some.injEq] at run
    exact ⟨bare, run.symm⟩

/-- The type that a text is read as. -/
def readType? (text : String) : Option TypeExpr := do
  let tokens ← scan? text.toList
  TypeExpr.ofTokens? tokens

theorem run_of_readAll {α : Type} {reader : TokenReader α} {value : α}
    (h : readAll reader found = some value) : reader.run found = some (value, []) := by
  unfold readAll within at h
  split at h
  · next value' run =>
    cases h
    exact run
  · cases h

/-- A configured path that is a type is the path of its names, unless it starts with one of the
words of other types. -/
theorem readType?_markedText
    (identifiers : ∀ name ∈ first :: others, Text.isIdentifier name.toList)
    (read : readType? (Text.markedText rooted (first :: others)) = some type) :
    (∀ name ∈ first :: others, IsName name) ∧
      ((∀ name ∈ first :: others, IsBareName name) ∧
          type = .path (markedPath rooted (first :: others)) ∨
        rooted = false ∧ first ∈ ["_", "dyn", "impl"] ∧ type.IsPathless) := by
  obtain ⟨found, scanned, isType⟩ := Option.bind_eq_some_iff.mp read
  obtain ⟨areNames, isFound⟩ := scan?_markedText identifiers scanned
  have run := run_of_readAll isType
  obtain ⟨limit, depth, inner, _⟩ := innerOf_eq found
  rw [inner] at run
  replace run : (typeShape (innerWithin limit depth) true).run found = some (type, []) := run
  have asPath : (pathType (innerWithin limit depth) true []).run found = some (type, []) →
      (∀ name ∈ first :: others, IsBareName name) ∧
        type = .path (markedPath rooted (first :: others)) := fun run => by
    obtain ⟨bare, same⟩ := pathType_marked areNames isFound run
    exact ⟨bare, congrArg Prod.fst same⟩
  refine ⟨areNames, ?_⟩
  obtain ⟨tail, behind, ⟨notRooted, rfl⟩ | ⟨_, joint, rfl⟩⟩ := found_markedPath isFound
  · by_cases isName : first ∈ reservedWords → first ∈ Lookahead.pathWords
    · have noHash : Lookahead.operator "#" tail = false := by
        rcases names_start behind with rfl | ⟨joint, rest, rfl⟩ <;>
          simp [Lookahead.operator, Lookahead.operatorChars]
      rw [typeShape_name ⟨areNames first List.mem_cons_self, isName⟩ noHash] at run
      exact .inl (asPath run)
    · obtain ⟨reserved, other⟩ := Classical.not_imp.mp isName
      exact .inr ⟨notRooted, reserved_type reserved other behind run⟩
  · rw [typeShape_separator] at run
    exact .inl (asPath run)

end Reading

end Source

end MiddlewareStack
