import MiddlewareStack.Proofs.ReadTypes

/-!
# Reading signatures that were written

A plain signature has a name, a receiver or none, inputs of plain types that are bound to names, and
an output. It is read again from what it is written as.
-/

namespace MiddlewareStack.Source

open TokenReader

/-- A name that may be given to an input or a function. -/
def IsFreeName (name : String) : Prop :=
  IsName name ∧ name ∉ reservedWords

instance (name : String) : Decidable (IsFreeName name) := inferInstanceAs (Decidable (_ ∧ _))

/-- The type does not start with a separator. Behind a colon the two would run together. -/
def TypeExpr.isUnrooted : TypeExpr → Bool
  | .path target => !target.rooted
  | _ => true

/-- A receiver without a type of its own, or an input with a name and a type. -/
inductive Input.Plain : Input → Prop
  | receiver {borrow : Option (Option String)} (mutable : Bool)
      (named : ∀ lifetime ∈ borrow, ∀ name ∈ lifetime, IsName name) :
    Plain (.receiver [] borrow mutable none)
  | typed {name : String} {type : TypeExpr} (isName : IsFreeName name) (plain : type.Plain)
      (unrooted : type.isUnrooted) :
    Plain (.typed [] { name? := some name, tokens := [.ident name] } type)

structure Signature.Plain (s : Signature) : Prop where
  qualifiers : s.qualifiers = []
  name : IsFreeName s.name
  generics : s.generics = []
  inputs : ∀ input ∈ s.inputs, input.Plain
  receiver : ∀ input ∈ s.inputs.tail, input.isReceiver = false
  closed : s.inputs = [] → s.trailing = true
  variadic : s.variadic = []
  output : ∀ type ∈ s.output, type.Plain
  conditions : s.conditions = []

variable {name : String} {rest found tokens : List Token} {limit depth : Nat}

theorem run_outerAttributes (inner : Inner) (noHash : Lookahead.operator "#" tokens = false) :
    (outerAttributes inner).run tokens = some ([], tokens) := by
  cases tokens <;> simp [outerAttributes, whileAhead, whileAheadFrom, noHash]

/-- What follows an input: nothing, or a comma. -/
def EndsInput (rest : List Token) : Prop :=
  ∀ token ∈ rest.head?, ∃ joint, token = .punct ',' joint

theorem EndsInput.type (h : EndsInput rest) : EndsType rest := fun token head => by
  obtain ⟨joint, rfl⟩ := h token head
  exact ⟨',', joint, rfl, .inl rfl⟩

/-- What stands behind the colon of an input: a name or a borrow. -/
def StartsUnrooted (tokens : List Token) : Prop :=
  (∃ name tail, tokens = .ident name :: tail) ∨ ∃ joint tail, tokens = .punct '&' joint :: tail

theorem StartsUnrooted.operator (h : StartsUnrooted tokens) (text : String) {c : Char}
    (first : text.toList.head? = some c) (other : c ≠ '&') :
    Lookahead.operator text tokens = false := by
  obtain ⟨behind, split⟩ := List.head?_eq_some_iff.mp first
  rw [Lookahead.operator, split]
  obtain ⟨name, tail, rfl⟩ | ⟨joint, tail, rfl⟩ := h
  · cases behind <;> rfl
  · cases behind <;> simp [Lookahead.operatorChars, other.symm]

theorem typed_start {type : TypeExpr} (plain : type.Plain) (unrooted : type.isUnrooted)
    (h : Found type.tokens found) (rest : List Token) : StartsUnrooted (found ++ rest) := by
  cases plain with
  | reference =>
    rw [TypeExpr.tokens, operator_borrow, List.append_assoc, List.append_assoc] at h
    obtain ⟨joint, _, tail, rfl, _⟩ := found_punct h
    exact .inr ⟨joint, _, rfl⟩
  | path rooted =>
    obtain ⟨front, behind, tail, rfl, mark, _⟩ := found_path h
    cases rooted with
    | true => cases unrooted
    | false =>
      obtain rfl := found_nil.mp mark
      exact .inl ⟨_, _, rfl⟩

theorem IsFreeName.ne (h : IsFreeName name) (word : String) (reserved : word ∈ reservedWords) :
    name ≠ word := by
  rintro rfl
  exact h.2 reserved

/-- The name of an input is read as a pattern. -/
theorem pattern_reads (limit depth : Nat) (joint : Bool) (isName : IsFreeName name)
    (starts : StartsUnrooted tokens) :
    ((innerWithin limit (depth + 1)).pattern).run (.ident name :: .punct ':' joint :: tokens) =
      some ({ name? := some name, tokens := [.ident name] }, .punct ':' joint :: tokens) := by
  have noColon : Lookahead.operator ":" tokens = false := starts.operator ":" rfl (by decide)
  have noSeparator : Lookahead.operator "::" (.punct ':' joint :: tokens) = false := by
    change ((':' == ':') && joint && Lookahead.operator ":" tokens) = false
    rw [noColon, Bool.and_false]
  have named : Lookahead.name (.ident name :: .punct ':' joint :: tokens) = true := by
    simp [Lookahead.name, isName.2]
  have noWord : ∀ word ∈ reservedWords,
      Lookahead.word word (.ident name :: .punct ':' joint :: tokens) = false := by
    intro word reserved
    simp [Lookahead.word, isName.ne word reserved]
  have noAnyWord : ∀ words : List String, (∀ word ∈ words, word ∈ reservedWords) →
      Lookahead.oneOf words (.ident name :: .punct ':' joint :: tokens) = false := by
    intro words reserved
    have absent : name ∉ words := fun member => isName.2 (reserved name member)
    simp [Lookahead.oneOf, absent]
  have noSelf := noWord "self" (by decide)
  have noPathWord := noAnyWord ["Self", "super", "crate"] (by decide)
  have noPath : startsPathPattern (.ident name :: .punct ':' joint :: tokens) = false := by
    simp only [startsPathPattern, Lookahead.rest, atOperator, List.any_cons, List.any_nil,
      noSeparator, noSelf, noPathWord, Lookahead.group]
    simp [Lookahead.operator, Lookahead.operatorChars]
  have noLiteral : Lookahead.literal (.ident name :: .punct ':' joint :: tokens) = false := by
    simp [Lookahead.literal, isName.ne "true" (by decide),
      isName.ne "false" (by decide)]
  have noAt : Lookahead.operator "@" (.punct ':' joint :: tokens) = false := by
    simp [Lookahead.operator, Lookahead.operatorChars]
  have bound : (namePattern (innerWithin limit depth)).run
      (.ident name :: .punct ':' joint :: tokens) =
      some ({ name? := some name, tokens := [.ident name] }, .punct ':' joint :: tokens) := by
    simp [namePattern, optionalWord, noWord "ref" (by decide),
      noWord "mut" (by decide), noSelf, TokenReader.name, named, noAt]
  rw [innerWithin]
  dsimp only
  rw [run_later]
  simp only [patternShape, run_bind, run_remaining, Option.bind_some, noPath, Bool.false_eq_true,
    if_false, run_ite, noWord "_" (by decide), noWord "box" (by decide),
    noLiteral, noWord "const" (by decide), Bool.or_self, named, Bool.true_or, if_true,
    bound]

/-- The reader inside a signature, and how an input is read by it. -/
structure InputReads (inner : Inner) (input : Input) (found rest : List Token) : Prop where
  nonempty : found ≠ []
  noHash : Lookahead.operator "#" (found ++ rest) = false
  run : (anyInput inner []).run (found ++ rest) = some (.inl input, rest)

/-- The tokens of a receiver, of which the sign of the borrow may be joint. -/
def receiverTokens (borrow : Option (Option String)) (mutable joint : Bool) : List Token :=
  (borrow.map fun lifetime => .punct '&' joint :: (lifetime.map Token.lifetime).getD []).getD [] ++
    ((if mutable then [.ident "mut"] else []) ++ [.ident "self"])

section Receiver

variable {borrow : Option (Option String)} {mutable joint : Bool}

theorem found_receiver (h : Found (Input.receiver [] borrow mutable none).tokens found) :
    ∃ joint, found = receiverTokens borrow mutable joint := by
  simp only [Input.tokens, List.nil_append, Option.map_none, Option.getD_none, List.append_nil] at h
  obtain ⟨_, last, rfl, further, isLast⟩ := found_append h
  obtain ⟨borrowed, words, rfl, isBorrow, isWord⟩ := found_append further
  obtain ⟨_, rfl, isNil⟩ := found_ident.mp isLast
  obtain rfl := found_nil.mp isNil
  obtain rfl := found_word isWord
  cases borrow with
  | none =>
    obtain rfl := found_nil.mp isBorrow
    exact ⟨false, List.append_assoc _ _ _⟩
  | some lifetime =>
    rw [Option.map_some, Option.getD_some, operator_borrow] at isBorrow
    obtain ⟨joint, _, _, rfl, isLifetime⟩ := found_punct isBorrow
    obtain rfl := found_lifetimes isLifetime
    exact ⟨joint, List.append_assoc _ _ _⟩

theorem startsReceiver_tokens (borrow : Option (Option String)) (mutable joint : Bool)
    (rest : List Token) : startsReceiver (receiverTokens borrow mutable joint ++ rest) =
      !Lookahead.operator "::" rest := by
  rcases borrow with _ | _ | lifetime <;> cases mutable <;> rfl

theorem receiver_run (inner : Inner) (ends : EndsInput rest) :
    (receiver inner []).run (receiverTokens borrow mutable joint ++ rest) =
      some (.receiver [] borrow mutable none, rest) := by
  have noColon : Lookahead.operator ":" rest = false := ends.type.operator ":" rfl (by decide)
  -- behind the borrow
  have behind : ∀ borrow : Option (Option String), (do
      let mutable ← skipWord "mut"
      word "self"
      if borrow.isNone && (← skipOperator ":") then
        return .receiver [] borrow mutable (some (← inner.type true))
      return .receiver [] borrow mutable none : TokenReader Input).run
        ((if mutable then [.ident "mut"] else []) ++ .ident "self" :: rest) =
      some (.receiver [] borrow mutable none, rest) := by
    intro borrow
    cases mutable <;> simp [Lookahead.word, noColon]
  cases borrow with
  | none =>
    have noBorrow : Lookahead.operator "&"
        ((if mutable then [.ident "mut"] else []) ++ .ident "self" :: rest) = false := by
      cases mutable <;> rfl
    simpa [receiver, receiverTokens, noBorrow] using behind none
  | some lifetime =>
    have noLifetime : Lookahead.lifetime
        ((if mutable then [.ident "mut"] else []) ++ .ident "self" :: rest) = false := by
      cases mutable <;> rfl
    have lifetimes := run_optionalLifetime lifetime noLifetime
    simpa [receiver, receiverTokens, Lookahead.operator, Lookahead.operatorChars, String.length,
      lifetimes] using behind (some lifetime)

theorem receiver_reads {inner : Inner}
    (h : Found (Input.receiver [] borrow mutable none).tokens found) (ends : EndsInput rest) :
    InputReads inner (.receiver [] borrow mutable none) found rest := by
  obtain ⟨joint, rfl⟩ := found_receiver h
  have starts : StartsUnrooted (receiverTokens borrow mutable joint ++ rest) := by
    rcases borrow with _ | lifetime
    · cases mutable <;> exact .inl ⟨_, _, rfl⟩
    · exact .inr ⟨_, _, rfl⟩
  have noDots : Lookahead.operator "..." (receiverTokens borrow mutable joint ++ rest) = false :=
    starts.operator "..." rfl (by decide)
  refine ⟨by simp [receiverTokens], starts.operator "#" rfl (by decide), ?_⟩
  have noSeparator : Lookahead.operator "::" rest = false := ends.type.operator "::" rfl (by decide)
  simp only [anyInput, run_bind, run_skipOperator, noDots, Bool.false_eq_true, if_false,
    Option.bind_some, run_ite, run_ahead, startsReceiver_tokens, noSeparator, Bool.not_false,
    if_true, receiver_run inner ends, run_pure]

end Receiver

theorem typed_reads {type : TypeExpr} (isName : IsFreeName name) (plain : type.Plain)
    (unrooted : type.isUnrooted) (enough : type.tokens.length < depth + 1)
    (h : Found (Input.typed [] { name? := some name, tokens := [.ident name] } type).tokens found)
    (ends : EndsInput rest) :
    InputReads (innerWithin limit (depth + 1))
      (.typed [] { name? := some name, tokens := [.ident name] } type) found rest := by
  rw [Input.tokens, operator_colon, List.nil_append, List.append_assoc, List.singleton_append,
    List.singleton_append] at h
  obtain ⟨_, rfl, behind⟩ := found_ident.mp h
  obtain ⟨joint, _, found, rfl, isType⟩ := found_punct behind
  have starts := typed_start plain unrooted isType rest
  have pattern := pattern_reads limit depth joint isName starts
  have run := (plain.reads limit (depth + 1) enough).reads true found rest isType ends.type
  have noDots : Lookahead.operator "..." (found ++ rest) = false :=
    starts.operator "..." rfl (by decide)
  refine ⟨List.cons_ne_nil _ _, rfl, ?_⟩
  rw [List.cons_append, List.cons_append]
  have noSelf : name ≠ "self" := isName.ne "self" (by decide)
  have noMut : name ≠ "mut" := isName.ne "mut" (by decide)
  have noReceiver :
      startsReceiver (.ident name :: .punct ':' joint :: (found ++ rest)) = false := by
    simp [startsReceiver, Lookahead.operator, Lookahead.operatorChars, Lookahead.word, noSelf,
      noMut]
  have noArguments : Lookahead.operator "<"
      (Lookahead.rest (.ident name :: .punct ':' joint :: (found ++ rest))) = false := by
    simp [Lookahead.rest, Lookahead.operator, Lookahead.operatorChars]
  have noFirstDots : Lookahead.operator "..." (.ident name :: .punct ':' joint :: (found ++ rest)) =
      false := rfl
  have colon : (TokenReader.operator ":").run (.punct ':' joint :: (found ++ rest)) =
      some ((), found ++ rest) := by
    simp [Lookahead.operator, Lookahead.operatorChars, String.length]
  simp only [anyInput, typedInput, run_bind, run_skipOperator, noFirstDots, Bool.false_eq_true,
    if_false, Option.bind_some, run_ite, run_ahead, noReceiver, run_remaining, noArguments,
    Bool.and_false, pattern, colon, noDots, run, run_pure]

/-! ## All inputs -/

/-- Inputs between commas are read up to the end. -/
theorem inputs_read {inner : Inner} {items : List Input} {trailing first : Bool}
    {bound : List Token}
    (read : ∀ input ∈ items, ∀ found rest, Found input.tokens found → EndsInput rest →
      InputReads inner input found rest)
    (called : ∀ input ∈ items.tail, input.isReceiver = false)
    (head : ∀ input ∈ items.head?, input.isReceiver → first)
    (closed : items = [] → trailing = true) (enough : items.length ≤ bound.length)
    (h : Found (separatedBy comma trailing (items.map Input.tokens)) found) :
    (inputs inner first bound).run found = some ((items, trailing, []), []) := by
  induction items generalizing found bound first with
  | nil =>
    obtain rfl := found_nil.mp h
    cases bound <;> simp [inputs, closed rfl]
  | cons item items ih =>
    obtain ⟨readFirst, readOthers⟩ := List.forall_mem_cons.mp read
    have allowed : item.isReceiver → first := head item rfl
    cases bound with
    | nil => simp at enough
    | cons _ bound =>
      have enough' : items.length ≤ bound.length := by simpa using enough
      by_cases more : items = [] → trailing = true
      · rw [List.map_cons, separatedBy_followed (by simpa using more), comma_eq] at h
        obtain ⟨_, behind, rfl, followed, there⟩ := found_append h
        obtain ⟨front, _, rfl, here, isComma⟩ := found_append followed
        obtain ⟨joint, _, _, rfl, isNil⟩ := found_punct isComma
        obtain rfl := found_nil.mp isNil
        have commaEnds : EndsInput (.punct ',' joint :: behind) := by
          rintro _ ⟨⟩
          exact ⟨joint, rfl⟩
        have reads := readFirst front _ here commaEnds
        have none : ∀ input ∈ items, input.isReceiver = false := called
        have runOthers : (inputs inner false bound).run behind =
            some ((items, trailing, []), []) :=
          ih readOthers (fun input member => none input (List.mem_of_mem_tail member))
            (fun input member => by simp [none input (List.mem_of_mem_head? member)])
            more enough' there
        have attributes := run_outerAttributes inner reads.noHash
        have run := reads.run
        simp only [List.append_assoc, List.singleton_append] at attributes run ⊢
        simpa [inputs, reads.nonempty, attributes, run, Lookahead.operator,
          Lookahead.operatorChars, String.length, runOthers] using allowed
      · obtain ⟨rfl, last⟩ := Classical.not_imp.mp more
        rw [List.map_singleton, separatedBy, if_neg last] at h
        have ends : EndsInput [] := by rintro _ ⟨⟩
        have reads := readFirst found [] h ends
        have attributes := run_outerAttributes inner reads.noHash
        have run := reads.run
        rw [List.append_nil] at attributes run
        simpa [inputs, reads.nonempty, attributes, run, last] using allowed

/-! ## Legible signatures -/

theorem Input.Plain.legible {input : Input} (h : input.Plain) : Legible input.tokens := by
  cases h with
  | @receiver borrow mutable named =>
    have borrowed : Legible ((borrow.map fun lifetime =>
        Token.operator "&" ++ (lifetime.map Token.lifetime).getD []).getD []) := by
      rcases borrow with _ | _ | lifetime
      · exact .nil
      · exact .sign (by decide) .nil
      · exact .sign (by decide) (legible_lifetime (named _ rfl lifetime rfl))
    have word : Legible (if mutable then [Token.ident "mut"] else []) := by
      cases mutable with
      | true => exact .ident (by decide +kernel) .nil
      | false => exact .nil
    have self : Legible [Token.ident "self"] := .ident (by decide +kernel) .nil
    exact ((Legible.append (.append .nil borrowed) word).append self).append .nil
  | typed isName plain =>
    rw [Input.tokens, operator_colon]
    exact .append (.append (.append .nil (.ident isName.1 .nil)) (.sign (by decide) .nil))
      plain.legible

theorem Signature.Plain.legible {s : Signature} (h : s.Plain) : Legible s.tokens := by
  have word : Legible [Token.ident "fn", .ident s.name] :=
    .ident (by decide +kernel) (.ident h.name.1 .nil)
  have inputs : Legible s.inputTokens := by
    rw [Signature.inputTokens, h.variadic]
    refine .append (legible_separatedBy ?_) .nil
    intro list member
    obtain ⟨input, among, rfl⟩ := List.mem_map.mp member
    exact (h.inputs input among).legible
  have output : Legible (outputTokens s.output) := by
    cases some : s.output with
    | none => exact .nil
    | some type =>
      rw [outputTokens, operator_arrow]
      exact .joint (by decide) (by decide) (.sign (by decide) (h.output type some).legible)
  rw [Signature.tokens, h.qualifiers, h.generics, h.conditions]
  exact ((((Legible.append .nil word).append .nil).append (.group .parenthesis inputs .nil)).append
    output).append .nil

/-! ## Reading them again -/

theorem Input.Plain.ne_nil {input : Input} (h : input.Plain) : input.tokens ≠ [] := by
  cases h <;> simp [Input.tokens]

/-- The type of an input, which has no more tokens than it. -/
theorem typed_length_le {pattern : Pattern} {attributes : List Token} {type : TypeExpr} :
    type.tokens.length ≤ (Input.typed attributes pattern type).tokens.length := by
  rw [Input.tokens, List.length_append]
  exact Nat.le_add_left _ _

theorem Input.Plain.reads {input : Input} (h : input.Plain)
    (enough : input.tokens.length < depth + 1) (isFound : Found input.tokens found)
    (ends : EndsInput rest) : InputReads (innerWithin limit (depth + 1)) input found rest := by
  cases h with
  | receiver => exact receiver_reads isFound ends
  | typed isName plain unrooted =>
    exact typed_reads isName plain unrooted (Nat.lt_of_le_of_lt typed_length_le enough) isFound ends

/-- The inputs of a plain signature are read from between its parentheses. -/
theorem Signature.Plain.inputs_read {s : Signature} (h : s.Plain) (limit : Nat)
    (isFound : Found s.inputTokens found) (enough : found.length < depth + 1) :
    (Source.inputs (innerWithin limit (depth + 1)) true found).run found =
      some ((s.inputs, s.trailing, []), []) := by
  rw [Signature.inputTokens, h.variadic, List.append_nil] at isFound
  have listed : ∀ list ∈ s.inputs.map Input.tokens, list ≠ [] := by
    intro list member
    obtain ⟨input, among, rfl⟩ := List.mem_map.mp member
    exact (h.inputs input among).ne_nil
  have counted : s.inputs.length ≤ found.length := by
    rw [← isFound.length_eq]
    simpa using length_le_separatedBy comma s.trailing listed
  refine Source.inputs_read (fun input member found' rest here ends => ?_) h.receiver
    (fun _ _ _ => rfl) h.closed counted isFound
  have shorter := length_le_of_mem_separatedBy s.trailing
    (List.mem_map_of_mem (f := Input.tokens) member)
  rw [isFound.length_eq] at shorter
  exact (h.inputs input member).reads (Nat.lt_of_le_of_lt shorter enough) here ends

theorem output_reads {output : Option TypeExpr} (plain : ∀ type ∈ output, type.Plain) (limit : Nat)
    (isFound : Found (outputTokens output) found) (enough : found.length < depth + 1) :
    (optionalOutput ((innerWithin limit (depth + 1)).type true)).run found =
      some (output, []) := by
  cases output with
  | none =>
    obtain rfl := found_nil.mp isFound
    simp [optionalOutput, Lookahead.operator, Lookahead.operatorChars]
  | some type =>
    rw [outputTokens, operator_arrow, List.cons_append, List.singleton_append] at isFound
    obtain ⟨joint, found, rfl, isType⟩ := found_pair isFound
    have shorter : type.tokens.length < depth + 1 := by
      rw [isType.length_eq]
      simp only [List.length_cons] at enough
      omega
    have run := ((plain type rfl).reads limit (depth + 1) shorter).reads true found [] isType
      endsType_nil
    rw [List.append_nil] at run
    simp [optionalOutput, Lookahead.operator, Lookahead.operatorChars, String.length, run]

/-- Nothing else belongs to a plain signature. -/
theorem Signature.Plain.eq {s : Signature} (h : s.Plain) :
    { qualifiers := [], name := s.name, generics := [], inputs := s.inputs, trailing := s.trailing,
      variadic := [], output := s.output, conditions := [] } = s := by
  cases s
  obtain ⟨rfl, _, rfl, _, _, _, rfl, _, rfl⟩ := h
  rfl

theorem Signature.Plain.reads {s : Signature} (h : s.Plain) (isFound : Found s.tokens found) :
    (signature (innerOf found)).run found = some (s, []) := by
  obtain ⟨limit, depth, inner, enough⟩ := innerOf_eq found
  rw [Signature.tokens, h.qualifiers, h.generics, h.conditions, List.append_nil, List.append_nil,
    List.nil_append, List.append_assoc, List.cons_append, List.singleton_append,
    List.singleton_append] at isFound
  obtain ⟨_, rfl, behindWord⟩ := found_ident.mp isFound
  obtain ⟨_, rfl, behindName⟩ := found_ident.mp behindWord
  obtain ⟨inside, behind, rfl, isInputs, isOutput⟩ := found_group behindName
  simp only [Token.countAll, Token.count] at enough
  have inputsShorter : inside.length < depth + 1 := by
    have counted := length_le_countAll inside
    omega
  have outputShorter : behind.length < depth + 1 := by
    have counted := length_le_countAll behind
    omega
  have runInputs := h.inputs_read limit isInputs inputsShorter
  have runOutput := output_reads h.output limit isOutput outputShorter
  have runInside :
      (do Source.inputs (innerWithin limit (depth + 1)) true (← remaining)).run inside =
      some ((s.inputs, s.trailing, []), []) := by simpa using runInputs
  have noWord : ∀ word, word ≠ "fn" → ∀ rest, (optionalWord word).run (.ident "fn" :: rest) =
      some ([], .ident "fn" :: rest) := fun word other rest => by
    simp [optionalWord, Lookahead.word, other.symm]
  have noAbi : ∀ rest, optionalAbi.run (.ident "fn" :: rest) = some ([], .ident "fn" :: rest) :=
    fun rest => by simp [optionalAbi, Lookahead.word]
  have named : ∀ rest, TokenReader.name.run (.ident s.name :: rest) = some (s.name, rest) :=
    fun rest => by simp [TokenReader.name, Lookahead.name, h.name.2]
  have noGenerics : (optionalGenerics (innerWithin limit (depth + 1))).run
      (.group .parenthesis inside :: behind) = some ([], .group .parenthesis inside :: behind) := by
    simp [optionalGenerics, Lookahead.operator, Lookahead.operatorChars]
  have noConditions :
      (optionalConditions (innerWithin limit (depth + 1))).run [] = some ([], []) := by
    simp [optionalConditions, Lookahead.word]
  rw [inner]
  simp only [signature, TokenReader.inside, run_bind, noWord "const" (by decide),
    noWord "async" (by decide), noWord "unsafe" (by decide), noAbi, Option.bind_some, run_word,
    if_true, named, noGenerics, run_content, run_within runInside, runOutput, noConditions, run_pure,
    List.append_nil, h.eq]

/-- A plain signature that is written is read back. -/
theorem Signature.Plain.read_back {s : Signature} (h : s.Plain) :
    ∃ found, scan? (written s.tokens).toList = some found ∧
      Signature.ofTokens? found = some s := by
  obtain ⟨found, scanned, isFound⟩ := scan?_written h.legible
  exact ⟨found, scanned, readAll_eq_some (h.reads isFound)⟩

/-- Behind a colon, the separator of a rooted type runs together with it and is not read again. -/
example :
    ((scan? "fn put(&self, name: ::std::Text)".toList).bind Signature.ofTokens?).map
        (fun s => written s.tokens) = some "fn put(&self, name :::std::Text)" ∧
      ((scan? "fn put(&self, name :::std::Text)".toList).bind Signature.ofTokens?).isNone := by
  decide +kernel

end MiddlewareStack.Source
