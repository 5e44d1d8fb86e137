import Mathlib.Tactic.IntervalCases
import MiddlewareStack.Json.Reader
import MiddlewareStack.Json.Writer
import MiddlewareStack.Manifest.Decode

/-!
# Written values are read back

The compact text of a value reads as that value, as long as its containers are not nested deeper
than a reader goes. The reader is followed piece by piece, with any text behind the piece. Numbers
are left out here: no manifest has one.
-/

namespace MiddlewareStack.Json

/-- Values without numbers, and with nothing in them that stands for no value. -/
inductive Plain : Json → Prop
  | null : Plain .null
  | bool (value : Bool) : Plain (.bool value)
  | string (text : String) : Plain (.string text)
  | array {items : List Json} (inside : ∀ item ∈ items, Plain item) : Plain (.array items)
  | object {fields : List (String × Json)} (inside : ∀ field ∈ fields, Plain field.2) :
    Plain (.object fields)

theorem itemsAreReadable_iff {items : List Json} :
    itemsAreReadable items = true ↔ ∀ item ∈ items, item.isReadable = true := by
  induction items with
  | nil => simp [itemsAreReadable]
  | cons item rest ih => simp [itemsAreReadable, ih]

theorem fieldsAreReadable_iff {fields : List (String × Json)} :
    fieldsAreReadable fields = true ↔ ∀ field ∈ fields, field.2.isReadable = true := by
  induction fields with
  | nil => simp [fieldsAreReadable]
  | cons field rest ih => simp [fieldsAreReadable, ih]

theorem Plain.isReadable {value : Json} (plain : value.Plain) : value.isReadable = true := by
  induction plain with
  | null | bool | string => rfl
  | array _ readable =>
    rw [Json.isReadable]
    exact itemsAreReadable_iff.mpr readable
  | object _ readable =>
    rw [Json.isReadable]
    exact fieldsAreReadable_iff.mpr readable

theorem depth_le_itemsDepth {items : List Json} {item : Json} (member : item ∈ items) :
    item.depth ≤ itemsDepth items := by
  induction items with
  | nil => cases member
  | cons first rest ih =>
    unfold itemsDepth
    rcases List.mem_cons.mp member with rfl | later
    · omega
    · have := ih later
      omega

theorem depth_le_fieldsDepth {fields : List (String × Json)} {field : String × Json}
    (member : field ∈ fields) : field.2.depth ≤ fieldsDepth fields := by
  induction fields with
  | nil => cases member
  | cons first rest ih =>
    unfold fieldsDepth
    rcases List.mem_cons.mp member with rfl | later
    · omega
    · have := ih later
      omega

/-! ## Strings -/

/-- A character is read as it was written. -/
theorem readStringFrom_escapeChar (c : Char) (read rest : List Char) :
    readStringFrom .plain (some { read }) (escapeChar c ++ rest) =
      readStringFrom .plain (some { read := c :: read }) rest := by
  unfold escapeChar
  -- the characters with an escape of their own, then the other control characters
  iterate 7 (split; next h => subst h; rfl)
  split
  · next control =>
    have ofNat : c = Char.ofNat c.toNat := c.ofNat_toNat.symm
    generalize c.toNat = n at control ofNat
    subst ofNat
    interval_cases n <;> rfl
  · next notQuote notBackslash _ _ _ _ _ printable =>
    rw [List.singleton_append, readStringFrom]
    simp [notQuote, notBackslash, printable, StringPart.push]

theorem readStringFrom_written (cs read rest : List Char) :
    readStringFrom .plain (some { read }) (cs.flatMap escapeChar ++ '"' :: rest) =
      some (some (String.ofList (read.reverse ++ cs)), rest) := by
  induction cs generalizing read with
  | nil => simp [readStringFrom, StringPart.text?]
  | cons c cs ih =>
    rw [List.flatMap_cons, List.append_assoc, readStringFrom_escapeChar, ih, List.reverse_cons,
      List.append_assoc, List.singleton_append]

theorem toList_stringText (text : String) :
    (stringText text).toList = '"' :: (text.toList.flatMap escapeChar ++ ['"']) := by
  simp [stringText]

theorem readString_stringText (text : String) (rest : List Char) :
    readString ((stringText text).toList ++ rest) = some (some text, rest) := by
  rw [toList_stringText, List.cons_append, List.append_assoc, List.singleton_append, readString,
    readStringFrom_written, List.reverse_nil, List.nil_append, String.ofList_toList]

/-! ## Values -/

/-- The characters that the texts of such values start with. -/
def leading : List Char :=
  ['n', 't', 'f', '"', '[', '{']

theorem compact_head {value : Json} (plain : value.Plain) :
    ∃ c ∈ leading, ∃ cs, value.compact.toList = c :: cs := by
  cases plain with
  | null => exact ⟨'n', by decide, _, rfl⟩
  | bool value => cases value <;> exact ⟨_, by decide, _, rfl⟩
  | string text => exact ⟨'"', by decide, _, toList_stringText text⟩
  | array => exact ⟨'[', by decide, _, by simp [compact]; rfl⟩
  | object => exact ⟨'{', by decide, _, by simp [compact]; rfl⟩

/-- A reader that reads a value back from its text, whatever is behind it. -/
def ReadsBack (read : Reader Json) (value : Json) : Prop :=
  ∀ rest, read (value.compact.toList ++ rest) = some (value, rest)

theorem skipSpaces_cons {c : Char} (h : isSpace c = false) (cs : List Char) :
    skipSpaces (c :: cs) = c :: cs := by
  simp [skipSpaces, h]

theorem skipSpaces_stringText (text : String) (rest : List Char) :
    skipSpaces ((stringText text).toList ++ rest) = (stringText text).toList ++ rest := by
  rw [toList_stringText, List.cons_append, skipSpaces_cons (by decide)]

/-- Texts with commas between them. -/
def joined (texts : List String) : List Char :=
  (",".intercalate texts).toList

@[simp] theorem joined_single (text : String) : joined [text] = text.toList := by
  rw [joined, String.intercalate_singleton]

@[simp] theorem joined_cons_cons (text next : String) (texts : List String) :
    joined (text :: next :: texts) = text.toList ++ ',' :: joined (next :: texts) := by
  simp [joined, String.intercalate_cons_cons]

theorem length_le_joined (texts : List String) : texts.length ≤ (joined texts).length + 1 := by
  induction texts with
  | nil => simp
  | cons text rest ih =>
    cases rest with
    | nil => simp
    | cons next rest =>
      simp only [joined_cons_cons, List.length_append, List.length_cons] at ih ⊢
      omega

/-- Joined texts start with the first of them. -/
theorem joined_head (text : String) (texts : List String) :
    ∃ behind, joined (text :: texts) = text.toList ++ behind := by
  cases texts with
  | nil => exact ⟨[], by simp⟩
  | cons next texts => exact ⟨_, joined_cons_cons text next texts⟩

theorem length_le_joined_of_mem {texts : List String} {text : String} (member : text ∈ texts) :
    text.toList.length ≤ (joined texts).length := by
  induction texts with
  | nil => cases member
  | cons first rest ih =>
    cases rest with
    | nil => rw [List.mem_singleton.mp member, joined_single]
    | cons next rest =>
      rw [joined_cons_cons, List.length_append, List.length_cons]
      rcases List.mem_cons.mp member with rfl | later
      · omega
      · have := ih later
        omega

theorem length_le_joined_append (texts : List String) (c : Char) (rest : List Char) :
    texts.length ≤ (joined texts ++ c :: rest).length := by
  have several := length_le_joined texts
  rw [List.length_append, List.length_cons]
  omega

theorem compactItems_eq_map (items : List Json) : compactItems items = items.map compact := by
  induction items with
  | nil => rfl
  | cons item rest ih => rw [compactItems, ih, List.map_cons]

theorem compactFields_eq_map (fields : List (String × Json)) : compactFields fields =
    fields.map fun field => stringText field.1 ++ ":" ++ field.2.compact := by
  induction fields with
  | nil => rfl
  | cons field rest ih => rw [compactFields, ih, List.map_cons]

theorem length_compact_array (items : List Json) :
    (compact (.array items)).toList.length = (joined (compactItems items)).length + 2 := by
  simp [compact, joined]

theorem length_compact_object (fields : List (String × Json)) :
    (compact (.object fields)).toList.length = (joined (compactFields fields)).length + 2 := by
  simp [compact, joined]

/-- The items of an array, with the bracket behind them. -/
theorem readItems_written {read : Reader Json} (rest : List Char) :
    ∀ (item : Json) (items : List Json) (count : Nat), (item :: items).length ≤ count →
      (∀ value ∈ item :: items, ReadsBack read value) →
      readItems read count (joined (compactItems (item :: items)) ++ ']' :: rest) =
        some (item :: items, rest)
  | item, [], count + 1, _, back => by
    have here := back item List.mem_cons_self
    rw [compactItems, compactItems, joined_single, readItems, here]
    rfl
  | item, next :: items, count + 1, bound, back => by
    obtain ⟨here, others⟩ := List.forall_mem_cons.mp back
    have later := readItems_written rest next items count (by simpa using bound) others
    rw [compactItems] at later ⊢
    rw [compactItems, joined_cons_cons, List.append_assoc, readItems, here]
    change (readItems read count (_ ++ ']' :: rest) >>= _) = _
    rw [later]
    rfl

/-- The fields of an object, with the brace behind them. -/
theorem readFields_written {read : Reader Json} (rest : List Char) :
    ∀ (field : String × Json) (fields : List (String × Json)) (count : Nat),
      (field :: fields).length ≤ count → (∀ entry ∈ field :: fields, ReadsBack read entry.2) →
      readFields read count (joined (compactFields (field :: fields)) ++ '}' :: rest) =
        some ((field :: fields).map fun entry => (some entry.1, entry.2), rest)
  | (name, value), [], count + 1, _, back => by
    have here := back _ List.mem_cons_self
    have text : joined (compactFields [(name, value)]) ++ '}' :: rest =
        (stringText name).toList ++ ':' :: (value.compact.toList ++ '}' :: rest) := by
      simp [compactFields]
    rw [text, readFields, skipSpaces_stringText, readString_stringText]
    change (read _ >>= _) = _
    rw [here]
    rfl
  | (name, value), next :: fields, count + 1, bound, back => by
    obtain ⟨here, others⟩ := List.forall_mem_cons.mp back
    have later := readFields_written rest next fields count (by simpa using bound) others
    have text : joined (compactFields ((name, value) :: next :: fields)) ++ '}' :: rest =
        (stringText name).toList ++ ':' :: (value.compact.toList ++ ',' ::
          (joined (compactFields (next :: fields)) ++ '}' :: rest)) := by
      simp [compactFields]
    rw [text, readFields, skipSpaces_stringText, readString_stringText]
    change (read _ >>= _) = _
    rw [here]
    change (readFields read count _ >>= _) = _
    rw [later]
    rfl

variable (bound depth : Nat)

theorem readValue_null : ReadsBack (readValue bound depth) .null := by
  intro rest
  rw [readValue]
  rfl

theorem readValue_bool (value : Bool) : ReadsBack (readValue bound depth) (.bool value) := by
  intro rest
  cases value <;> rw [readValue] <;> rfl

theorem readValue_string (text : String) : ReadsBack (readValue bound depth) (.string text) := by
  intro rest
  have written : (compact (.string text)).toList ++ rest =
      '"' :: (text.toList.flatMap escapeChar ++ '"' :: rest) := by
    change (stringText text).toList ++ rest = _
    simp [toList_stringText]
  rw [written, readValue]
  change (readStringFrom .plain (some {}) _).map _ = _
  rw [readStringFrom_written]
  simp

/-- Behind the bracket of an array that is not closed at once there are items. -/
theorem readValue_bracket {c : Char} (filled : c ∈ leading) (cs : List Char) :
    readValue (bound + 1) depth ('[' :: c :: cs) =
      (readItems (readValue bound (depth + 1)) (c :: cs).length (c :: cs)).map
        fun read => (nested depth (.array read.1), read.2) := by
  simp only [leading, List.mem_cons, List.not_mem_nil, or_false] at filled
  rcases filled with rfl | rfl | rfl | rfl | rfl | rfl <;>
    (rw [readValue]; rfl)

theorem readValue_brace (cs : List Char) :
    readValue (bound + 1) depth ('{' :: '"' :: cs) =
      (readFields (readValue bound (depth + 1)) ('"' :: cs).length ('"' :: cs)).map
        fun read => (nested depth (ofFields read.1), read.2) := by
  rw [readValue]
  rfl

variable {bound depth}

theorem ofFields_named (fields : List (String × Json)) :
    ofFields (fields.map fun field => (some field.1, field.2)) = .object fields := by
  have names : (fields.map fun field => (some field.1, field.2)).mapM
      (fun field => field.1.map fun name => (name, field.2)) = some fields := by
    induction fields with
    | nil => rfl
    | cons field rest ih => simp [ih]
  unfold ofFields
  split
  · next found =>
    have same := Option.some.inj (found.symm.trans names)
    rw [same]
  · next missing => cases missing.symm.trans names

theorem readValue_array {items : List Json} (plain : ∀ item ∈ items, item.Plain)
    (shallow : depth < maxDepth)
    (back : ∀ item ∈ items, ReadsBack (readValue bound (depth + 1)) item) :
    ReadsBack (readValue (bound + 1) depth) (.array items) := by
  intro rest
  have stays : nested depth (.array items) = .array items := if_pos shallow
  cases items with
  | nil =>
    rw [readValue]
    change some (nested depth (.array []), rest) = _
    rw [stays]
  | cons item items =>
    have written : (compact (.array (item :: items))).toList ++ rest =
        '[' :: (joined (compactItems (item :: items)) ++ ']' :: rest) := by
      simp [compact, joined]
    obtain ⟨c, filled, cs, first⟩ := compact_head (plain item List.mem_cons_self)
    obtain ⟨behind, head⟩ := joined_head item.compact (compactItems items)
    rw [first, ← compactItems, List.cons_append] at head
    have count := length_le_joined_append (compactItems (item :: items)) ']' rest
    rw [compactItems_eq_map, List.length_map, ← compactItems_eq_map] at count
    have read := readItems_written rest item items _ count back
    rw [written, head, List.cons_append, readValue_bracket _ _ filled, ← List.cons_append, ← head,
      read, Option.map_some, stays]

theorem readValue_object {fields : List (String × Json)} (shallow : depth < maxDepth)
    (back : ∀ field ∈ fields, ReadsBack (readValue bound (depth + 1)) field.2) :
    ReadsBack (readValue (bound + 1) depth) (.object fields) := by
  intro rest
  have stays : nested depth (.object fields) = .object fields := if_pos shallow
  cases fields with
  | nil =>
    rw [readValue]
    change some (nested depth (.object []), rest) = _
    rw [stays]
  | cons field fields =>
    have written : (compact (.object (field :: fields))).toList ++ rest =
        '{' :: (joined (compactFields (field :: fields)) ++ '}' :: rest) := by
      simp [compact, joined]
    obtain ⟨cs, head⟩ : ∃ cs, joined (compactFields (field :: fields)) = '"' :: cs := by
      obtain ⟨behind, head⟩ := joined_head
        (stringText field.1 ++ ":" ++ field.2.compact) (compactFields fields)
      exact ⟨_, by rw [compactFields, head]; simp [toList_stringText]; rfl⟩
    have count := length_le_joined_append (compactFields (field :: fields)) '}' rest
    rw [compactFields_eq_map, List.length_map, ← compactFields_eq_map] at count
    have read := readFields_written rest field fields _ count back
    rw [written, head, List.cons_append, readValue_brace, ← List.cons_append, ← head, read,
      Option.map_some, ofFields_named, stays]

/-- The text of a value is read as that value, whatever is behind it. -/
theorem readValue_compact {value : Json} (bound depth : Nat) (plain : value.Plain)
    (short : value.compact.toList.length ≤ bound) (shallow : depth + value.depth ≤ maxDepth) :
    ReadsBack (readValue bound depth) value := by
  induction bound generalizing value depth with
  | zero =>
    obtain ⟨c, _, cs, head⟩ := compact_head plain
    simp [head] at short
  | succ bound ih =>
    cases plain with
    | null => apply readValue_null
    | bool => apply readValue_bool
    | string => apply readValue_string
    | @array items inside =>
      rw [Json.depth] at shallow
      apply readValue_array inside (by omega)
      intro item member
      have inItems := depth_le_itemsDepth member
      have inText := length_le_joined_of_mem
        (compactItems_eq_map items ▸ List.mem_map_of_mem member)
      rw [length_compact_array] at short
      exact ih (depth + 1) (inside item member) (by omega) (by omega)
    | @object fields inside =>
      rw [Json.depth] at shallow
      apply readValue_object (by omega)
      intro field member
      have inFields := depth_le_fieldsDepth member
      have inText := length_le_joined_of_mem
        (compactFields_eq_map fields ▸ List.mem_map_of_mem member)
      rw [String.toList_append, List.length_append] at inText
      rw [length_compact_object] at short
      exact ih (depth + 1) (inside field member) (by omega) (by omega)

/-- A text is parsed as the value it was written for, if that is not nested too deep. -/
theorem parse?_compact {value : Json} (plain : value.Plain) (shallow : value.depth ≤ maxDepth) :
    parse? value.compact = some value := by
  have read := readValue_compact value.compact.toList.length 0 plain le_rfl (by omega) []
  rw [List.append_nil] at read
  unfold parse?
  simp [read, skipSpaces]

end MiddlewareStack.Json
