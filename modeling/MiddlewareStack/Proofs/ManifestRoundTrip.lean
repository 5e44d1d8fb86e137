import MiddlewareStack.Aggregate
import MiddlewareStack.Manifest.Encode
import MiddlewareStack.Proofs.DiscoveryOrder
import MiddlewareStack.Proofs.JsonText

/-!
# Tables through their JSON form

What is written for a table reads back as the same table. A reader of records finds each field that
the writer has put there, a reader of a kind finds the tag, and no part of what is written is
unreadable. References nest, and are read with a bound on their depth: that of the written value is
always enough. A manifest is the text of such a value. It gives back the table as long as the
references in it are not nested deeper than a reader of texts goes.
-/

namespace MiddlewareStack

namespace Json

variable {α β : Type}

/-- An object whose fields are those of the record, in order, has all of them. -/
theorem record?_object {fields : List (String × Json)} {names : List String}
    (named : fields.map Prod.fst = names) (once : names.Nodup) :
    (object fields).record? names = some (fields.map fun field => some field.2) := by
  subst named
  have single : ∀ name, (fields.filter (·.1 = name)).length ≤ 1 := by
    intro name
    have counted := List.nodup_iff_count.mp once name
    rw [List.count, List.countP_map, List.countP_eq_length_filter] at counted
    exact counted
  rw [record?, if_pos (by simp [single]), List.map_map, Option.some.injEq]
  apply List.map_congr_left
  intro field member
  exact (KeyedMap.lookup_eq_some_iff_mem once).mpr member

/-- A list is read back if each of its items is. -/
theorem mapM_map_of_inverse {read : β → Option α} {write : α → β} :
    ∀ {items : List α}, (∀ item ∈ items, read (write item) = some item) →
      (items.map write).mapM read = some items
  | [], _ => rfl
  | item :: rest, inverse => by
    obtain ⟨first, others⟩ := List.forall_mem_cons.mp inverse
    simp [first, mapM_map_of_inverse others]

theorem list?_array {read : Json → Option α} {write : α → Json} (items : List α)
    (inverse : ∀ item ∈ items, read (write item) = some item) :
    list? read (.array (items.map write)) = some items :=
  mapM_map_of_inverse inverse

/-- A value that may be missing is read back if nothing that is there is written as null. -/
theorem nullable?_ofOption {read : Json → Option α} {write : α → Json}
    (inverse : ∀ value, read (write value) = some value) (present : ∀ value, write value ≠ .null)
    (value : Option α) : nullable? read (.ofOption write value) = some value := by
  cases value with
  | none => rfl
  | some value =>
    unfold ofOption nullable?
    split
    · next isNull => exact absurd isNull (present value)
    · rw [inverse, Option.map_some]

theorem map?_toJson {read : Json → Option α} {write : α → Json}
    (inverse : ∀ value, read (write value) = some value) (m : KeyedMap α) :
    map? read (m.toJson write) = some m := by
  have entries : (m.entries.map fun entry => (entry.1, write entry.2)).mapM
      (fun field => (read field.2).map fun value => (field.1, value)) = some m.entries := by
    apply mapM_map_of_inverse
    intro entry _
    rw [inverse, Option.map_some]
  change Option.map KeyedMap.ofList
    (List.mapM _ (m.entries.map fun entry => (entry.1, write entry.2))) = some m
  rw [entries, Option.map_some, KeyedMap.ofList_eq fun _ _ => KeyedMap.find?_eq_some_iff.symm]

end Json

open Json

@[simp] theorem QualifiedName.ofJson?_toJson (q : QualifiedName) : ofJson? q.toJson = some q := by
  unfold ofJson? toJson
  rw [record?_object (by rfl) (by decide)]
  rfl

theorem QualifiedName.plain_toJson (q : QualifiedName) : q.toJson.Plain := by
  apply Plain.object
  simp [Plain.string]

namespace TypeRef

theorem toJsons_eq_map (args : List TypeRef) : toJsons args = args.map toJson := by
  induction args with
  | nil => rfl
  | cons arg rest ih => rw [toJsons, ih, List.map_cons]

theorem taggedParts?_tagged (kind : String) (value : Json) :
    taggedParts? (tagged kind value) = some (kind, value) := by
  unfold taggedParts? tagged
  dsimp only
  rw [record?_object (by rfl) (by decide)]
  rfl

theorem depth_tagged (kind : String) (value : Json) :
    (tagged kind value).depth = value.depth + 1 := by
  simp [tagged, depth, fieldsDepth]

theorem depth_generic (base : QualifiedName) {args : List TypeRef} {arg : TypeRef}
    (member : arg ∈ args) : arg.toJson.depth < (toJson (.generic base args)).depth := by
  have inside := depth_le_itemsDepth (List.mem_map_of_mem (f := toJson) member)
  simp only [toJson, toJsons_eq_map, depth_tagged, depth, fieldsDepth]
  omega

theorem depth_ref (mutable : Bool) (inner : TypeRef) :
    inner.toJson.depth < (toJson (.ref mutable inner)).depth := by
  simp only [toJson, depth_tagged, depth, fieldsDepth]
  omega

/-- A reference is read back as soon as the bound exceeds the depth of what is written for it. -/
theorem ofJsonWithin?_toJson (bound : Nat) :
    ∀ ty : TypeRef, ty.toJson.depth < bound → ofJsonWithin? bound ty.toJson = some ty := by
  induction bound with
  | zero => intro ty deep; omega
  | succ bound ih =>
    intro ty deep
    cases ty with
    | declared name => simp [toJson, ofJsonWithin?, taggedParts?_tagged, ofTagged?]
    | external path => simp [toJson, ofJsonWithin?, taggedParts?_tagged, ofTagged?, string?]
    | verbatim text => simp [toJson, ofJsonWithin?, taggedParts?_tagged, ofTagged?, string?]
    | dyn inner =>
      have read := ih inner (by rw [toJson, depth_tagged] at deep; omega)
      simp [toJson, ofJsonWithin?, taggedParts?_tagged, ofTagged?, read]
    | impl inner =>
      have read := ih inner (by rw [toJson, depth_tagged] at deep; omega)
      simp [toJson, ofJsonWithin?, taggedParts?_tagged, ofTagged?, read]
    | ref mutable inner =>
      have read := ih inner (by have := depth_ref mutable inner; omega)
      simp only [toJson, ofJsonWithin?, taggedParts?_tagged, ofTagged?, fields?,
        Option.bind_eq_bind, Option.bind_some]
      rw [record?_object (by rfl) (by decide)]
      simp [bool?, read]
    | generic base args =>
      have read : ∀ arg ∈ args, ofJsonWithin? bound arg.toJson = some arg := fun arg member =>
        ih arg (by have := depth_generic base member; omega)
      simp only [toJson, toJsons_eq_map, ofJsonWithin?, taggedParts?_tagged, ofTagged?, fields?,
        Option.bind_eq_bind, Option.bind_some]
      rw [record?_object (by rfl) (by decide)]
      simp [list?_array args read]

@[simp] theorem ofJson?_toJson (ty : TypeRef) : ofJson? ty.toJson = some ty :=
  ofJsonWithin?_toJson _ ty (Nat.lt_succ_self _)

theorem toJson_ne_null (ty : TypeRef) : ty.toJson ≠ .null := by
  cases ty <;> simp [toJson, tagged]

theorem plain_tagged (kind : String) {value : Json} (plain : value.Plain) :
    (tagged kind value).Plain := by
  apply Plain.object
  simp [plain, Plain.string]

mutual

theorem plain_toJson : ∀ ty : TypeRef, ty.toJson.Plain
  | .declared name => plain_tagged _ name.plain_toJson
  | .generic base args => by
    refine plain_tagged _ (.object ?_)
    simp [base.plain_toJson, Plain.array (plain_toJsons args)]
  | .external path => plain_tagged _ (.string path)
  | .ref mutable inner => by
    refine plain_tagged _ (.object ?_)
    simp [Plain.bool, plain_toJson inner]
  | .dyn inner => plain_tagged _ (plain_toJson inner)
  | .impl inner => plain_tagged _ (plain_toJson inner)
  | .verbatim text => plain_tagged _ (.string text)

theorem plain_toJsons : ∀ args : List TypeRef, ∀ item ∈ toJsons args, item.Plain
  | [] => List.forall_mem_nil _
  | arg :: rest => List.forall_mem_cons.mpr ⟨plain_toJson arg, plain_toJsons rest⟩

end

end TypeRef

@[simp] theorem Receiver.ofJson?_word (r : Receiver) : ofJson? (.string r.word) = some r := by
  cases r <;> rfl

@[simp] theorem Param.ofJson?_toJson (p : Param) : ofJson? p.toJson = some p := by
  unfold ofJson? toJson
  rw [record?_object (by rfl) (by decide)]
  simp [string?, orDefault]

@[simp] theorem Method.ofJson?_toJson (m : Method) : ofJson? m.toJson = some m := by
  unfold ofJson? toJson
  rw [record?_object (by rfl) (by decide)]
  have params := list?_array m.params fun p _ => Param.ofJson?_toJson p
  have output := nullable?_ofOption TypeRef.ofJson?_toJson TypeRef.toJson_ne_null m.output
  simp [string?, orDefault, params, output]

@[simp] theorem Interface.ofJson?_object (i : Interface) :
    ofJson? (.object i.jsonFields) = some i := by
  unfold ofJson? jsonFields
  rw [record?_object (by rfl) (by decide)]
  have embeds := list?_array i.embeds fun ty _ => TypeRef.ofJson?_toJson ty
  have methods := list?_array i.methods fun m _ => Method.ofJson?_toJson m
  simp [orDefault, embeds, methods]

@[simp] theorem ConcreteType.ofJson?_object (t : ConcreteType) :
    ofJson? (.object t.jsonFields) = some t := by
  unfold ofJson? jsonFields
  rw [record?_object (by rfl) (by decide)]
  have methods := list?_array t.methods fun m _ => Method.ofJson?_toJson m
  simp [orDefault, methods]

theorem Param.plain_toJson (p : Param) : p.toJson.Plain := by
  apply Plain.object
  simp [Plain.string, p.ty.plain_toJson]

theorem Method.plain_toJson (m : Method) : m.toJson.Plain := by
  have params : (Json.array (m.params.map Param.toJson)).Plain := by
    apply Plain.array
    simp [Param.plain_toJson]
  have output : (Json.ofOption TypeRef.toJson m.output).Plain := by
    cases m.output with
    | none => exact .null
    | some ty => exact ty.plain_toJson
  apply Plain.object
  simp [Plain.string, params, output]

theorem plain_methods (methods : List Method) : (Json.array (methods.map Method.toJson)).Plain := by
  apply Plain.array
  simp [Method.plain_toJson]

theorem Declaration.plain_toJson (kind : Declaration) : kind.toJson.Plain := by
  cases kind with
  | interface decl =>
    have embeds : (Json.array (decl.embeds.map TypeRef.toJson)).Plain := by
      apply Plain.array
      simp [TypeRef.plain_toJson]
    apply Plain.object
    simp [Interface.jsonFields, Plain.string, embeds, plain_methods]
  | concrete decl =>
    apply Plain.object
    simp [ConcreteType.jsonFields, Plain.string, plain_methods]
  | other =>
    apply Plain.object
    simp [Plain.string]

/-- The kind is told apart from the fields it stands before. -/
theorem Declaration.ofFields?_object {kind : String} {fields : List (String × Json)}
    (others : ∀ field ∈ fields, field.1 ≠ "kind") :
    ofFields? (.object (("kind", .string kind) :: fields)) = ofTagged? kind (.object fields) := by
  have tag : fields.filter (·.1 = "kind") = [] := by simpa using others
  have rest : fields.filter (·.1 ≠ "kind") = fields := by simpa using others
  simp only [ofFields?, List.filter_cons, tag, rest]
  simp

@[simp] theorem Declaration.ofJson?_toJson (kind : Declaration) :
    ofJson? kind.toJson = some kind := by
  rw [ofJson?, if_pos kind.plain_toJson.isReadable]
  cases kind with
  | interface decl =>
    rw [toJson, ofFields?_object (by simp [Interface.jsonFields])]
    simp [ofTagged?]
  | concrete decl =>
    rw [toJson, ofFields?_object (by simp [ConcreteType.jsonFields])]
    simp [ofTagged?]
  | other => rfl

@[simp] theorem Symbol.ofJson?_toJson (s : Symbol) : ofJson? s.toJson = some s := by
  unfold ofJson? toJson
  rw [record?_object (by rfl) (by decide)]
  simp

@[simp] theorem Package.ofJson?_toJson (p : Package) : ofJson? p.toJson = some p := by
  unfold ofJson? toJson
  rw [record?_object (by rfl) (by decide)]
  simp [string?, orDefault, map?_toJson Symbol.ofJson?_toJson]

theorem Table.ofJson?_toJson (t : Table) : ofJson? t.toJson = some t := by
  unfold ofJson? toJson
  rw [record?_object (by rfl) (by decide)]
  simp [orDefault, map?_toJson Package.ofJson?_toJson]

theorem KeyedMap.plain_toJson {α : Type} {write : α → Json} (plain : ∀ value, (write value).Plain)
    (m : KeyedMap α) : (m.toJson write).Plain := by
  apply Plain.object
  intro field member
  obtain ⟨entry, _, rfl⟩ := List.mem_map.mp member
  exact plain entry.2

theorem Symbol.plain_toJson (s : Symbol) : s.toJson.Plain := by
  apply Plain.object
  simp [s.name.plain_toJson, s.kind.plain_toJson]

theorem Package.plain_toJson (p : Package) : p.toJson.Plain := by
  apply Plain.object
  simp [Plain.string, p.symbols.plain_toJson Symbol.plain_toJson]

theorem Table.plain_toJson (t : Table) : t.toJson.Plain := by
  apply Plain.object
  simp [t.packages.plain_toJson Package.plain_toJson]

/-- The manifest of a table describes that table. -/
theorem Table.ofManifest?_compact {t : Table} (shallow : t.toJson.depth ≤ maxDepth) :
    ofManifest? t.toJson.compact = some t := by
  rw [ofManifest?, parse?_compact t.plain_toJson shallow, Option.bind_some, ofJson?_toJson]

/-- What is written for a table reads back as that table, and so does the manifest of the table, as
long as it is not nested too deep. The table that was read therefore compiles to the same stacks,
and the same code is generated with it. -/
theorem manifest_round_trip (t : Table) :
    Table.ofJson? t.toJson = some t ∧
    (t.toJson.depth ≤ maxDepth → Table.ofManifest? t.toJson.compact = some t) ∧
    ∀ read, Table.ofJson? t.toJson = some read →
      (∀ c scope name, read.compile c scope name = t.compile c scope name) ∧
      ∀ s config, Aggregate.ofStack s read config = Aggregate.ofStack s t config := by
  refine ⟨t.ofJson?_toJson, Table.ofManifest?_compact, fun read found => ?_⟩
  rw [t.ofJson?_toJson, Option.some.injEq] at found
  subst found
  exact ⟨fun _ _ _ => rfl, fun _ _ => rfl⟩

/-- A table with each kind of declaration, of reference and of receiver. -/
def variedTable : Table :=
  let name := QualifiedName.mk "self"
  let cache : TypeRef := .generic (name "Cache") [.external "u8", .dyn (.declared (name "Auth"))]
  let get : Method :=
    { name := "get"
      receiver := .refMut
      params := [{ name := "key", ty := .ref true cache, rendered := "&mut Cache<u8, dyn Auth>" }]
      output := some (.impl (.declared (name "Auth")))
      rendered := "fn get(&mut self, key: &mut Cache<u8, dyn Auth>) -> impl Auth" }
  let make : Method :=
    { name := "make", receiver := .absent, output := some (.verbatim "(u8, u8)") }
  let take : Method := { name := "take", receiver := .value }
  (((Table.empty.openPackage "self::empty").insert (name "Auth")
    (.interface { embeds := [.declared (name "Base"), cache], methods := [get] })).insert
    (name "AuthMiddleware") (.concrete { methods := [get, make, take] })).insert (name "Id") .other

theorem varied_table_round_trip :
    variedTable.toJson.depth ≤ maxDepth ∧
      Table.ofManifest? variedTable.toJson.compact = some variedTable ∧
      ∃ read, Table.ofJson? variedTable.toJson = some read ∧
        read.compile {} "self" "Auth" = variedTable.compile {} "self" "Auth" := by
  obtain ⟨read, fromText, same⟩ := manifest_round_trip variedTable
  have shallow : variedTable.toJson.depth ≤ maxDepth := by decide +kernel
  exact ⟨shallow, fromText shallow, _, read, (same _ read).1 _ _ _⟩

end MiddlewareStack
