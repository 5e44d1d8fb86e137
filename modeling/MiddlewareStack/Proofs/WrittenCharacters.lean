import MiddlewareStack.Proofs.ReadTypes

/-!
# The characters of written tokens

Spacing removes nothing but blanks, so that a written text has all other characters of its tokens
(`ink_written`). How many there are does not depend on the order of the tokens, and what is put
between lists of them adds to what is in the lists.
-/

namespace MiddlewareStack.Source

/-- The number of characters that are not blanks. -/
def ink (text : List Char) : Nat :=
  text.countP (· != ' ')

/-- The number of characters of some tokens that are not blanks. -/
def inkOf (tokens : List Token) : Nat :=
  ink (Token.charsOf tokens)

variable {text text' : List Char} {tokens : List Token}

theorem ink_cons (c : Char) (text : List Char) : ink (c :: text) = ink [c] + ink text := by
  rw [ink, ink, ink, ← List.singleton_append, List.countP_append]

theorem ink_append (text text' : List Char) : ink (text ++ text') = ink text + ink text' :=
  List.countP_append

theorem ink_blank (text : List Char) : ink (' ' :: text) = ink text := by
  rw [ink_cons]
  exact Nat.zero_add _

theorem Closes.ink (closes : Closes text text') : ink text' = ink text := by
  induction closes with
  | nil => rfl
  | keep c _ ih => rw [ink_cons, ih, ← ink_cons]
  | after _ _ ih => rw [ink_cons, ih, ink_cons _ (' ' :: _), ink_blank]
  | before _ _ ih => rw [ih, ink_blank]

/-- A written text has the characters of its tokens. -/
theorem ink_written (tokens : List Token) : ink (written tokens).toList = inkOf tokens :=
  written_induction (P := fun text => ink text = inkOf tokens)
    (fun closes same => closes.ink.trans same) rfl

/-! ## Characters of lists of tokens -/

@[simp] theorem inkOf_nil : inkOf [] = 0 := rfl

theorem inkOf_cons (first : Token) (rest : List Token) :
    inkOf (first :: rest) = ink (Token.chars first) + inkOf rest := by
  unfold inkOf
  rcases charsOf_cons first rest with ⟨chars, _⟩ | ⟨chars, _⟩ <;> rw [chars]
  · rw [ink_append]
  · rw [ink_append, ink_blank]

@[simp] theorem inkOf_append (tokens tokens' : List Token) :
    inkOf (tokens ++ tokens') = inkOf tokens + inkOf tokens' := by
  induction tokens with
  | nil => rw [List.nil_append, inkOf_nil, Nat.zero_add]
  | cons first rest ih => rw [List.cons_append, inkOf_cons, ih, inkOf_cons, Nat.add_assoc]

/-- A group has its delimiters and what is between them. -/
theorem ink_group (d : Delimiter) (content : List Token) :
    ink (Token.chars (.group d content)) = inkOf content + 2 := by
  have surrounded : ∀ (opening closing : Char) (content : List Char), opening ≠ ' ' →
      closing ≠ ' ' → ink (opening :: content ++ [closing]) = ink content + 2 := by
    intro opening closing content solid solid'
    simp [ink, solid, solid']
  rw [Token.chars, inkOf]
  cases d with
  | parenthesis | bracket => exact surrounded _ _ _ (by decide) (by decide)
  | brace =>
    simp only [Delimiter.surround]
    split
    · next empty =>
      rw [List.isEmpty_iff.mp empty]
      rfl
    · have spaced : '{' :: ' ' :: Token.charsOf content ++ [' ', '}'] =
          '{' :: (' ' :: Token.charsOf content ++ [' ']) ++ ['}'] := by simp
      rw [spaced, surrounded _ _ _ (by decide) (by decide), ink_append, ink_blank]
      rfl

theorem inkOf_perm {tokens tokens' : List Token} (same : tokens.Perm tokens') :
    inkOf tokens = inkOf tokens' := by
  induction same with
  | nil => rfl
  | cons token _ ih => rw [inkOf_cons, inkOf_cons, ih]
  | swap first second rest =>
    simp only [inkOf_cons]
    omega
  | trans _ _ ih ih' => exact ih.trans ih'

/-! What is put between lists of tokens does not depend on what is in them. -/

theorem inkOf_separatedBy (separator : List Token) (trailing : Bool) (lists : List (List Token)) :
    inkOf (separatedBy separator trailing lists) = inkOf lists.flatten +
      inkOf (separatedBy separator trailing (lists.map fun _ => [])) := by
  fun_induction separatedBy separator trailing lists with
  | case1 => rfl
  | case2 last more => simp [separatedBy, more]
  | case3 last more => simp [separatedBy, more]
  | case4 first others _ ih =>
    cases others with
    | nil => contradiction
    | cons second others =>
      rw [inkOf_append, inkOf_append, ih]
      simp only [List.map_cons, separatedBy, inkOf_append, List.flatten_cons, inkOf_nil]
      omega

/-- An item with nothing in it. -/
def ListItem.emptied (item : ListItem) : ListItem :=
  { item with tokens := [] }

theorem withCommas_emptied (trailing : Bool) (items : List ListItem) :
    withCommas trailing (items.map ListItem.emptied) =
      (withCommas trailing items).map fun item => (item.1.emptied, item.2) := by
  fun_induction withCommas trailing items with
  | case1 | case2 => rfl
  | case3 first rest _ ih =>
    cases rest with
    | nil => contradiction
    | cons second rest =>
      rw [List.map_cons] at ih
      rw [List.map_cons, List.map_cons, withCommas, ih]
      · rfl
      · exact List.cons_ne_nil _ _

theorem inkOf_joinItems (separated : Bool) (items : List (ListItem × Bool)) :
    inkOf (joinItems separated items) = inkOf (items.flatMap (·.1.tokens)) +
      inkOf (joinItems separated (items.map fun item => (item.1.emptied, item.2))) := by
  induction items generalizing separated with
  | nil => rfl
  | cons first rest ih =>
    rw [joinItems, List.map_cons, joinItems]
    simp only [inkOf_append, ih, List.flatMap_cons, ListItem.emptied, inkOf_nil]
    omega

theorem inkOf_lifetimesFirst (trailing : Bool) (items : List ListItem) :
    inkOf (lifetimesFirst trailing items) = inkOf (items.flatMap ListItem.tokens) +
      inkOf (lifetimesFirst trailing (items.map ListItem.emptied)) := by
  have ordered : (withCommas trailing items).filter (·.1.isLifetime) ++
      (withCommas trailing items).filter (!·.1.isLifetime) |>.Perm (withCommas trailing items) :=
    List.filter_append_perm _ _
  have unordered : (withCommas trailing items).flatMap (·.1.tokens) =
      items.flatMap ListItem.tokens := by
    rw [← map_fst_withCommas trailing items, List.flatMap_map, map_fst_withCommas]
  rw [lifetimesFirst, inkOf_joinItems, lifetimesFirst, withCommas_emptied,
    inkOf_perm (ordered.flatMap_right _), unordered, List.filter_map, List.filter_map,
    ← List.map_append]
  rfl

/-- The text of a signature has at least the word that it starts with. -/
theorem Signature.written_ne_empty (s : Signature) : written s.tokens ≠ "" := by
  intro empty
  have counted := ink_written s.tokens
  rw [empty] at counted
  have none : ink "".toList = 0 := rfl
  have word : ink (Token.chars (.ident "fn")) = 2 := by decide
  simp only [Signature.tokens, inkOf_append, inkOf_cons, word] at counted
  omega

end MiddlewareStack.Source
