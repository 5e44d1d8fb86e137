/-!
# Maps with text keys

Entries are kept in the order of their keys, bytewise, and no key occurs twice. Two maps with the
same entries are therefore the same map.
-/

namespace MiddlewareStack

/-- Put an entry in its place, over an entry of the same key. -/
def insertEntry {α : Type} (key : String) (value : α) : List (String × α) → List (String × α)
  | [] => [(key, value)]
  | (k, v) :: rest =>
    if key < k then (key, value) :: (k, v) :: rest
    else if key = k then (key, value) :: rest
    else (k, v) :: insertEntry key value rest

theorem mem_insertEntry {α : Type} {key : String} {value : α} {entries : List (String × α)}
    {entry : String × α} (h : entry ∈ insertEntry key value entries) :
    entry = (key, value) ∨ entry ∈ entries := by
  fun_induction insertEntry key value entries with
  | case1 => simpa using h
  | case2 => simpa using h
  | case3 =>
    rcases List.mem_cons.1 h with h | h
    · exact .inl h
    · exact .inr (List.mem_cons_of_mem _ h)
  | case4 k v rest _ _ ih =>
    rcases List.mem_cons.1 h with rfl | h
    · exact .inr List.mem_cons_self
    · exact (ih h).imp id (List.mem_cons_of_mem _)

theorem lt_of_not_lt_of_ne {a b : String} (h : ¬a < b) (hne : a ≠ b) : b < a := by
  apply Classical.byContradiction
  intro h'
  exact hne (String.le_antisymm (String.not_lt.1 h') (String.not_lt.1 h))

abbrev Ascending {α : Type} (entries : List (String × α)) : Prop :=
  entries.Pairwise fun a b => a.1 < b.1

theorem ascending_insertEntry {α : Type} (key : String) (value : α) {entries : List (String × α)}
    (h : Ascending entries) : Ascending (insertEntry key value entries) := by
  fun_induction insertEntry key value entries with
  | case1 => simp [Ascending]
  | case2 k v rest hlt =>
    refine List.pairwise_cons.2 ⟨fun entry hmem => ?_, h⟩
    rcases List.mem_cons.1 hmem with rfl | hmem
    · exact hlt
    · exact String.lt_trans hlt ((List.pairwise_cons.1 h).1 entry hmem)
  | case3 => exact List.pairwise_cons.2 ((List.pairwise_cons.1 h).imp (fun hall => hall) id)
  | case4 k v rest hlt hne ih =>
    have hrest := List.pairwise_cons.1 h
    refine List.pairwise_cons.2 ⟨fun entry hmem => ?_, ih hrest.2⟩
    rcases mem_insertEntry hmem with rfl | hmem
    · exact lt_of_not_lt_of_ne hlt hne
    · exact hrest.1 entry hmem

structure KeyedMap (α : Type) where
  entries : List (String × α)
  ascending : Ascending entries
  deriving DecidableEq

namespace KeyedMap

variable {α β : Type}

instance [Repr α] : Repr (KeyedMap α) where
  reprPrec m prec := reprPrec m.entries prec

def empty : KeyedMap α := ⟨[], .nil⟩

instance : Inhabited (KeyedMap α) := ⟨empty⟩

instance : EmptyCollection (KeyedMap α) := ⟨empty⟩

def find? (m : KeyedMap α) (key : String) : Option α :=
  m.entries.lookup key

def contains (m : KeyedMap α) (key : String) : Bool :=
  (m.find? key).isSome

def insert (m : KeyedMap α) (key : String) (value : α) : KeyedMap α :=
  ⟨insertEntry key value m.entries, ascending_insertEntry key value m.ascending⟩

/-- The map of some entries. Of two entries with one key the later counts. -/
def ofList (entries : List (String × α)) : KeyedMap α :=
  entries.foldl (fun m entry => m.insert entry.1 entry.2) empty

def keys (m : KeyedMap α) : List String :=
  m.entries.map Prod.fst

def values (m : KeyedMap α) : List α :=
  m.entries.map Prod.snd

def size (m : KeyedMap α) : Nat :=
  m.entries.length

/-- The map with something else in the place of each value. -/
def map (f : α → β) (m : KeyedMap α) : KeyedMap β :=
  ⟨m.entries.map fun entry => (entry.1, f entry.2), List.pairwise_map.2 m.ascending⟩

theorem ext_entries {m n : KeyedMap α} (h : m.entries = n.entries) : m = n := by
  cases m; cases n; cases h; rfl

@[simp] theorem find?_empty (key : String) : (empty : KeyedMap α).find? key = none := rfl

theorem lookup_cons_ite {κ : Type} [DecidableEq κ] (key other : κ) (value : α)
    (entries : List (κ × α)) :
    ((key, value) :: entries).lookup other =
      if other = key then some value else entries.lookup other := by
  by_cases h : other = key
  · subst h
    simp
  · simp [List.lookup_cons, beq_false_of_ne h, h]

theorem lookup_insertEntry (key other : String) (value : α) (entries : List (String × α)) :
    (insertEntry key value entries).lookup other =
      if other = key then some value else entries.lookup other := by
  fun_induction insertEntry key value entries with
  | case1 => exact lookup_cons_ite ..
  | case2 => exact lookup_cons_ite ..
  | case3 => by_cases h : other = key <;> simp only [lookup_cons_ite, h, if_true, if_false]
  | case4 k v rest hlt hne ih =>
    rw [lookup_cons_ite, ih, lookup_cons_ite]
    by_cases h : other = key
    · subst h
      simp [hne]
    · simp [h]

theorem mem_of_lookup_eq_some {κ : Type} [DecidableEq κ] {entries : List (κ × α)} {key : κ}
    {value : α} (h : entries.lookup key = some value) : (key, value) ∈ entries := by
  obtain ⟨before, after, rfl, _⟩ := List.lookup_eq_some_iff.1 h
  simp

/-- Where no key occurs twice, a lookup finds just what is there. -/
theorem lookup_eq_some_iff_mem {entries : List (String × α)} (once : (entries.map Prod.fst).Nodup)
    {key : String} {value : α} : entries.lookup key = some value ↔ (key, value) ∈ entries := by
  refine ⟨mem_of_lookup_eq_some, fun member => ?_⟩
  obtain ⟨before, after, rfl⟩ := List.append_of_mem member
  refine List.lookup_eq_some_iff.2 ⟨before, after, rfl, fun entry earlier => ?_⟩
  rw [List.map_append, List.nodup_append] at once
  have different : entry.1 ≠ key :=
    once.2.2 _ (List.mem_map_of_mem earlier) key (by simp)
  simpa using different.symm

theorem mem_entries_of_find? {m : KeyedMap α} {key : String} {value : α}
    (h : m.find? key = some value) : (key, value) ∈ m.entries :=
  mem_of_lookup_eq_some h

theorem find?_insert (m : KeyedMap α) (key other : String) (value : α) :
    (m.insert key value).find? other = if other = key then some value else m.find? other :=
  lookup_insertEntry key other value m.entries

theorem find?_map (f : α → β) (m : KeyedMap α) (key : String) :
    (m.map f).find? key = (m.find? key).map f := by
  change (m.entries.map fun entry => (entry.1, f entry.2)).lookup key =
    (m.entries.lookup key).map f
  induction m.entries with
  | nil => rfl
  | cons entry rest ih =>
    rw [List.map_cons, lookup_cons_ite, ih, lookup_cons_ite]
    split <;> rfl

theorem keys_map (f : α → β) (m : KeyedMap α) : (m.map f).keys = m.keys := by
  simp [keys, map, Function.comp_def]

theorem mem_keys_iff {m : KeyedMap α} {key : String} : key ∈ m.keys ↔ (m.find? key).isSome := by
  unfold keys find?
  rw [List.lookup_isSome_iff]
  simp

theorem nodup_keys (m : KeyedMap α) : m.keys.Nodup := by
  refine List.pairwise_map.2 (m.ascending.imp fun {a b} less same => ?_)
  exact String.lt_irrefl _ (same ▸ less)

theorem find?_eq_some_iff {m : KeyedMap α} {key : String} {value : α} :
    m.find? key = some value ↔ (key, value) ∈ m.entries :=
  lookup_eq_some_iff_mem m.nodup_keys

/-- A map is known by its lookups. -/
theorem ext_find? {m n : KeyedMap α} (h : ∀ key, m.find? key = n.find? key) : m = n := by
  have nodup : ∀ m : KeyedMap α, m.entries.Nodup := fun m =>
    List.Pairwise.of_map _ (fun _ _ different same => different (congrArg Prod.fst same))
      m.nodup_keys
  have same : m.entries.Perm n.entries := by
    refine (List.perm_ext_iff_of_nodup (nodup m) (nodup n)).2 fun ⟨key, value⟩ => ?_
    rw [← find?_eq_some_iff, ← find?_eq_some_iff, h]
  refine ext_entries (same.eq_of_pairwise (fun a b _ _ less greater => ?_) m.ascending n.ascending)
  exact absurd (String.lt_trans less greater) (String.lt_irrefl _)

/-- Maps that contain the same keys have them in the same order. -/
theorem keys_eq_of_contains {m : KeyedMap α} {n : KeyedMap β}
    (h : ∀ key, m.contains key = n.contains key) : m.keys = n.keys := by
  have same : m.map (fun _ => ()) = n.map (fun _ => ()) := by
    refine ext_find? fun key => ?_
    have both := h key
    rw [contains, contains] at both
    rw [find?_map, find?_map]
    cases found : m.find? key <;> cases found' : n.find? key <;> simp_all
  rw [← keys_map (fun _ => ()) m, same, keys_map]

theorem find?_foldl_insert (entries : List (String × α)) (m : KeyedMap α) (key : String) :
    (entries.foldl (fun m entry => m.insert entry.1 entry.2) m).find? key =
      (entries.reverse.lookup key).or (m.find? key) := by
  induction entries generalizing m with
  | nil => simp
  | cons entry rest ih =>
    rw [List.foldl_cons, ih, find?_insert, List.reverse_cons, List.lookup_append, Option.or_assoc,
      lookup_cons_ite]
    by_cases same : key = entry.1 <;> simp [same]

theorem find?_ofList (entries : List (String × α)) (key : String) :
    (ofList entries).find? key = entries.reverse.lookup key := by
  rw [ofList, find?_foldl_insert, find?_empty, Option.or_none]

/-- Entries that are just those of a map make up that map, in any order and with repeats. -/
theorem ofList_eq {m : KeyedMap α} {entries : List (String × α)}
    (h : ∀ key value, (key, value) ∈ entries ↔ m.find? key = some value) : ofList entries = m := by
  refine ext_find? fun key => Option.ext fun value => ?_
  rw [find?_ofList, ← h]
  constructor
  · intro found
    exact List.mem_reverse.1 (mem_of_lookup_eq_some found)
  · intro member
    have present : (entries.reverse.lookup key).isSome :=
      List.lookup_isSome_iff.2 ⟨_, List.mem_reverse.2 member, beq_self_eq_true key⟩
    obtain ⟨other, found⟩ := Option.isSome_iff_exists.1 present
    have isEntry : (key, other) ∈ entries := List.mem_reverse.1 (mem_of_lookup_eq_some found)
    rw [found, ← (h key other).1 isEntry]
    exact (h key value).1 member

end KeyedMap

end MiddlewareStack
