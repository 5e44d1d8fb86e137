import MiddlewareStack.Source.Scan

/-!
# Names in source text

A name is what a scan reads as one name and nothing else. It consists of letters and digits, behind
the mark of a raw name if it has one, and it is read again wherever no further letter or digit
follows. Every name that a scan finds is one.
-/

namespace MiddlewareStack.Source

/-- The whole text is a single name. -/
def IsName (name : String) : Prop :=
  name? name.toList = some (name, [])

instance (name : String) : Decidable (IsName name) := inferInstanceAs (Decidable (_ = _))

/-- A name without the mark of a raw one. -/
def IsPlainName (cs : List Char) : Prop :=
  ∃ c rest, cs = c :: rest ∧ isNameStart c ∧ ∀ x ∈ rest, isNameContinue x

/-- No name goes on here. -/
def EndsName (rest : List Char) : Prop :=
  ∀ c ∈ rest.head?, isNameContinue c = false

variable {c x : Char} {cs rest : List Char} {name : String}

theorem isNameContinue_of_isNameStart (h : isNameStart c) : isNameContinue c := by
  unfold isNameStart Text.isIdentifierStart at h
  unfold isNameContinue Text.isIdentifierContinue
  split at h
  · next ascii =>
    simp only [Bool.or_eq_true] at h
    simp only [ascii, if_true, Bool.or_eq_true, Char.isAlphanum]
    exact h.imp_left .inl
  · next beyond =>
    simp only [beyond, if_false, Bool.or_eq_true]
    exact .inl h

/-- The code points of all blanks. -/
def blankCodes : List Nat :=
  [0x20, 0x85, 0xA0, 0x1680, 0x2028, 0x2029, 0x202F, 0x205F, 0x3000, 0x200E, 0x200F] ++
    List.range' 0x09 5 ++ List.range' 0x2000 11

theorem mem_blankCodes_of_isBlank (h : Text.isBlank c) : c.toNat ∈ blankCodes := by
  unfold Text.isBlank at h
  simp only [blankCodes, List.mem_append, List.mem_cons, List.mem_range'_1, List.not_mem_nil]
  split at h
  · simp only [Bool.or_eq_true, beq_iff_eq, Bool.and_eq_true, decide_eq_true_eq] at h
    rcases h with rfl | h
    · simp
    · omega
  · simp only [Text.CodeRanges.contains, Text.blankRanges, List.any_cons, List.any_nil,
      Bool.or_eq_true, Bool.and_eq_true, decide_eq_true_eq, beq_iff_eq, Bool.or_false] at h
    rcases h with (h | rfl) | rfl
    · omega
    · simp
    · simp

/-- A blank starts no name. -/
theorem not_isBlank_of_isNameStart (h : isNameStart c) : Text.isBlank c = false := by
  have none : ∀ code ∈ blankCodes, isNameStart (Char.ofNat code) = false := by decide +kernel
  cases blank : Text.isBlank c with
  | false => rfl
  | true =>
    have absent := none _ (mem_blankCodes_of_isBlank blank)
    rw [Char.ofNat_toNat, h] at absent
    cases absent

/-- The characters of names are told from all others by a single look. -/
theorem ne_of_isNameContinue (h : isNameContinue c) (hx : isNameContinue x = false) : c ≠ x := by
  rintro rfl
  simp [h] at hx

theorem plainName?_eq_some (h : plainName? cs = some (name, rest)) :
    IsPlainName name.toList ∧ cs = name.toList ++ rest ∧ EndsName rest := by
  cases cs with
  | nil => cases h
  | cons c tail =>
    simp only [plainName?] at h
    split at h
    · next start =>
      cases h
      simp only [String.toList_ofList]
      refine ⟨⟨c, _, rfl, start, List.all_eq_true.mp List.all_takeWhile⟩, ?_, fun x head => ?_⟩
      · rw [List.cons_append, List.takeWhile_append_dropWhile]
      · have stopped := List.head?_dropWhile_not isNameContinue tail
        rw [Option.mem_def.mp head] at stopped
        exact stopped
    · cases h

theorem plainName?_append (h : IsPlainName cs) (ends : EndsName rest) :
    plainName? (cs ++ rest) = some (String.ofList cs, rest) := by
  obtain ⟨c, tail, rfl, start, continues⟩ := h
  have taken : (tail ++ rest).takeWhile isNameContinue = tail ∧
      (tail ++ rest).dropWhile isNameContinue = rest := by
    rw [List.takeWhile_append_of_pos continues, List.dropWhile_append_of_pos continues]
    cases rest with
    | nil => simp
    | cons x rest => simp [ends x rfl]
  simp only [List.cons_append, plainName?, start, if_true, taken]

theorem name?_eq_plainName? (h : ∀ rest, cs ≠ 'r' :: '#' :: rest) : name? cs = plainName? cs := by
  unfold name?
  split
  · next rest => exact absurd rfl (h rest)
  · rfl

/-- A name is plain, or it is the mark of a raw name with a plain one behind it. -/
def HasNameShape (name : String) : Prop :=
  IsPlainName name.toList ∨ ∃ plain, IsPlainName plain ∧ String.ofList plain ∉ neverRaw ∧
    name.toList = 'r' :: '#' :: plain

theorem HasNameShape.name?_append (h : HasNameShape name) (ends : EndsName rest)
    (unmarked : rest.head? ≠ some '#') : name? (name.toList ++ rest) = some (name, rest) := by
  rcases h with plain | ⟨raw, plain, allowed, marked⟩
  · rw [name?_eq_plainName?, plainName?_append plain ends, String.ofList_toList]
    intro tail same
    obtain ⟨c, more, split, _, continues⟩ := plain
    rw [split] at same
    obtain ⟨rfl, behind⟩ := List.cons.inj same
    cases more with
    | nil =>
      change rest = '#' :: tail at behind
      exact unmarked (by rw [behind, List.head?_cons])
    | cons x _ =>
      obtain ⟨rfl, _⟩ := List.cons.inj behind
      exact absurd (continues '#' List.mem_cons_self) (by decide)
  · have text : "r#" ++ String.ofList raw = name := by
      rw [← String.toList_inj, String.toList_append, String.toList_ofList, String.toList_ofList,
        marked]
      rfl
    simp only [marked, List.cons_append, name?, plainName?_append plain ends, allowed, if_false,
      text]

theorem hasNameShape_of_name? (h : name? cs = some (name, rest)) :
    HasNameShape name ∧ cs = name.toList ++ rest ∧ EndsName rest := by
  unfold name? at h
  split at h
  · next tail =>
    split at h
    · next plain behind found =>
      obtain ⟨isPlain, text, ends⟩ := plainName?_eq_some found
      split at h
      · cases h
      · next allowed =>
        cases h
        rw [String.toList_append]
        refine ⟨.inr ⟨plain.toList, isPlain, ?_, String.toList_append⟩, by rw [text]; rfl, ends⟩
        rwa [String.ofList_toList]
    · cases h
  · obtain ⟨isPlain, text, ends⟩ := plainName?_eq_some h
    exact ⟨.inl isPlain, text, ends⟩

theorem isName_iff : IsName name ↔ HasNameShape name := by
  constructor
  · exact fun h => (hasNameShape_of_name? h).1
  · intro h
    have ends : EndsName [] := by simp [EndsName]
    have read := h.name?_append ends (by simp)
    rwa [List.append_nil] at read

theorem name?_eq_some (h : name? cs = some (name, rest)) :
    IsName name ∧ cs = name.toList ++ rest ∧ EndsName rest := by
  obtain ⟨shape, text, ends⟩ := hasNameShape_of_name? h
  exact ⟨isName_iff.mpr shape, text, ends⟩

theorem IsName.name?_append (h : IsName name) (ends : EndsName rest)
    (unmarked : rest.head? ≠ some '#') : name? (name.toList ++ rest) = some (name, rest) :=
  (isName_iff.mp h).name?_append ends unmarked

/-- Every character of a name belongs to a name, but for the mark of a raw one. -/
theorem IsName.chars (h : IsName name) : ∀ c ∈ name.toList, isNameContinue c ∨ c = '#' := by
  have ofPlain : ∀ {cs}, IsPlainName cs → ∀ c ∈ cs, isNameContinue c := by
    rintro _ ⟨c, rest, rfl, start, continues⟩
    exact List.forall_mem_cons.mpr ⟨isNameContinue_of_isNameStart start, continues⟩
  rcases isName_iff.mp h with plain | ⟨raw, plain, _, marked⟩
  · exact fun c member => .inl (ofPlain plain c member)
  · rw [marked, List.forall_mem_cons, List.forall_mem_cons]
    exact ⟨.inl (by decide), .inr rfl, fun c member => .inl (ofPlain plain c member)⟩

theorem IsName.not_mem (h : IsName name) (hx : isNameContinue x = false) (unmarked : x ≠ '#') :
    x ∉ name.toList := fun member =>
  (h.chars x member).elim (fun continues => by simp [hx] at continues) unmarked

/-- The names in a token are names. -/
inductive Token.Named : Token → Prop
  | ident {name : String} (isName : IsName name) : Named (.ident name)
  | punct (c : Char) (joint : Bool) : Named (.punct c joint)
  | literal (text : String) : Named (.literal text)
  | group (d : Delimiter) {content : List Token} (inside : ∀ token ∈ content, token.Named) :
    Named (.group d content)

abbrev AllNamed (tokens : List Token) : Prop :=
  ∀ token ∈ tokens, token.Named

theorem leaf?_named {token : Token} (h : leaf? cs = some (token, rest)) : token.Named := by
  unfold leaf? at h
  split at h
  · cases h
    exact .literal _
  · split at h
    · next found isPunct =>
      cases h
      unfold punctuation? at isPunct
      split at isPunct
      · cases isPunct
      · split at isPunct
        · cases isPunct
        · split at isPunct
          · obtain ⟨quote, found, same⟩ := Option.map_eq_some_iff.mp isPunct
            cases same
            unfold quote? at found
            split at found
            · cases found
            · split at found
              · cases found
              · split at found
                · cases found
                  exact .punct _ _
                · cases found
              · cases found
                exact .punct _ _
          · cases isPunct
            exact .punct _ _
    · split at h
      · cases h
      · obtain ⟨⟨name, behind⟩, found, same⟩ := Option.map_eq_some_iff.mp h
        cases same
        exact .ident (name?_eq_some found).1

theorem docAttribute_named (inner : Bool) (text : List Char) :
    AllNamed (docAttribute inner text) := by
  have doc : IsName "doc" := by decide +kernel
  have inside : AllNamed [.ident "doc", .punct '=' false, .literal (Text.literalOf text)] := by
    simp only [AllNamed, List.forall_mem_cons]
    exact ⟨.ident doc, .punct _ _, .literal _, by simp⟩
  cases inner <;>
    simp only [docAttribute, AllNamed, List.forall_mem_append, List.forall_mem_cons, if_true,
      Bool.false_eq_true, if_false]
  · exact ⟨⟨.punct _ _, by simp⟩, .group _ inside, by simp⟩
  · exact ⟨⟨.punct _ _, .punct _ _, by simp⟩, .group _ inside, by simp⟩

theorem lexeme?_named {tokens : List Token} (h : lexeme? cs = some (.tokens tokens, rest)) :
    AllNamed tokens := by
  have ofLeaf : ∀ {cs rest}, (leaf? cs).map (fun found => (Lexeme.tokens [found.1], found.2)) =
      some (.tokens tokens, rest) → AllNamed tokens := by
    intro cs rest mapped
    obtain ⟨⟨token, behind⟩, read, same⟩ := Option.map_eq_some_iff.mp mapped
    cases same
    exact List.forall_mem_singleton.mpr (leaf?_named read)
  unfold lexeme? at h
  split at h
  · split at h
    · cases h
      exact docAttribute_named _ _
    · cases h
  · split at h
    · cases h
    · split at h
      · split at h
        · exact ofLeaf h
        · cases h
      · cases h
      · exact ofLeaf h

/-- What has been read so far, and what stands before the groups that are open. -/
def ReadNamed (groups : OpenGroups) (read : List Token) : Prop :=
  AllNamed read ∧ ∀ group ∈ groups, AllNamed group.2

theorem scanFrom_named {bound : Nat} {groups : OpenGroups} {read tokens : List Token}
    (h : scanFrom bound groups read cs = some tokens) (before : ReadNamed groups read) :
    AllNamed tokens := by
  fun_induction scanFrom bound groups read cs with
  | case1 | case3 | case6 | case9 | case11 => cases h
  | case2 _ groups read =>
    cases h
    exact fun token member => before.1 token (List.mem_reverse.mp member)
  -- a blank or a comment
  | case4 _ _ _ _ _ _ ih | case5 _ _ _ _ _ _ _ _ ih => exact ih h before
  -- some tokens
  | case7 _ _ _ _ _ _ found _ lexed _ ih =>
    refine ih h ⟨List.forall_mem_append.mpr ⟨fun token member => ?_, before.1⟩, before.2⟩
    exact lexeme?_named lexed token (List.mem_reverse.mp member)
  -- a group opens
  | case8 _ _ _ _ _ _ _ _ _ _ ih =>
    exact ih h ⟨List.forall_mem_nil _, List.forall_mem_cons.mpr before⟩
  -- a group closes
  | case10 _ _ _ _ _ _ _ _ _ _ _ ih =>
    obtain ⟨earlier, others⟩ := List.forall_mem_cons.mp before.2
    refine ih h ⟨List.forall_mem_cons.mpr ⟨.group _ fun token member => ?_, earlier⟩, others⟩
    exact before.1 token (List.mem_reverse.mp member)

/-- All names in what a scan finds are names. -/
theorem scan?_named {text : List Char} {tokens : List Token} (h : scan? text = some tokens) :
    AllNamed tokens :=
  scanFrom_named h ⟨List.forall_mem_nil _, List.forall_mem_nil _⟩

end MiddlewareStack.Source
