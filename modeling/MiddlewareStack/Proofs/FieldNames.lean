import Mathlib.Data.List.Perm.Subperm
import MiddlewareStack.Proofs.ContractImpls

/-!
# The names of the fields

A field is named after its implementation, with the packages in front where several components want
that name. Two components get one name in two ways: nothing that the name shows tells them apart, or
the packages of one complete its name to that of the other.
-/

namespace MiddlewareStack.Aggregate

/-- A name with what stands in front of it. -/
def qualified : Option String → String → String
  | none, name => name
  | some front, name => front ++ "_" ++ name

/-- The packages of an implementation as a field name shows them, none at the top level. -/
def packagePrefix? (c : Component) : Option String :=
  if (packageWords c).isEmpty then none else some ("_".intercalate (packageWords c))

/-- Several components want the name of this one. -/
def Contended (components : List Component) (c : Component) : Prop :=
  (components.filter (baseName · = baseName c)).length > 1

instance (components : List Component) (c : Component) : Decidable (Contended components c) :=
  inferInstanceAs (Decidable (_ > _))

/-- What the field of a component has in front of its name. -/
def usedPrefix? (components : List Component) (c : Component) : Option String :=
  if Contended components c then packagePrefix? c else none

/-- How the fields of two components come to have one name. -/
inductive Collides (components : List Component) (a b : Component) : Prop
  | alike (name : baseName a = baseName b) (packages : packagePrefix? a = packagePrefix? b)
  | overlapping (word : String) (name : baseName b = word ++ "_" ++ baseName a)
      (packages : usedPrefix? components a = some (qualified (usedPrefix? components b) word))

variable {components : List Component} {a b : Component}

theorem fieldName_eq (components : List Component) (c : Component) :
    fieldName components c = qualified (usedPrefix? components c) (baseName c) := by
  unfold fieldName usedPrefix? packagePrefix? Contended
  by_cases contended : (components.filter (baseName · = baseName c)).length > 1
  · cases (packageWords c).isEmpty <;> simp [contended, qualified]
  · simp [contended, qualified]

theorem qualified_qualified (front : Option String) (word name : String) :
    qualified (some (qualified front word)) name = qualified front (word ++ "_" ++ name) := by
  cases front <;> simp [qualified, String.append_assoc]

/-- Of two equal texts with a separator, the one whose front is longer has its separator in the name
of the other, if not in the same place. -/
theorem separator_shifts {front front' name name' : String} {between : List Char}
    (longer : front'.toList = front.toList ++ between)
    (rest : '_' :: name.toList = between ++ '_' :: name'.toList) :
    (front = front' ∧ name = name') ∨
      ∃ word, name = word ++ "_" ++ name' ∧ front' = front ++ "_" ++ word := by
  cases between with
  | nil => simp_all [← String.toList_inj]
  | cons separator word =>
    obtain ⟨rfl, after⟩ := List.cons.inj rest
    refine .inr ⟨String.ofList word, ?_, ?_⟩
    · simpa [← String.toList_inj] using after
    · simp [← String.toList_inj, longer]

theorem append_separator_eq {front front' name name' : String}
    (same : front ++ "_" ++ name = front' ++ "_" ++ name') :
    (front = front' ∧ name = name') ∨
      (∃ word, name' = word ++ "_" ++ name ∧ front = front' ++ "_" ++ word) ∨
      ∃ word, name = word ++ "_" ++ name' ∧ front' = front ++ "_" ++ word := by
  have chars : front.toList ++ '_' :: name.toList = front'.toList ++ '_' :: name'.toList := by
    simpa using congrArg String.toList same
  rcases List.append_eq_append_iff.mp chars with ⟨between, longer, rest⟩ | ⟨between, longer, rest⟩
  · exact (separator_shifts longer rest).imp_right .inr
  · exact (separator_shifts longer rest).imp (fun ⟨fronts, names⟩ => ⟨fronts.symm, names.symm⟩) .inl

theorem qualified_eq_iff {front front' : Option String} {name name' : String} :
    qualified front name = qualified front' name' ↔
      (name = name' ∧ front = front') ∨
      (∃ word, name' = word ++ "_" ++ name ∧ front = some (qualified front' word)) ∨
      ∃ word, name = word ++ "_" ++ name' ∧ front' = some (qualified front word) := by
  constructor
  · intro same
    cases front with
    | none =>
      cases front' with
      | none => exact .inl ⟨same, rfl⟩
      | some word' => exact .inr (.inr ⟨word', same, rfl⟩)
    | some word =>
      cases front' with
      | none => exact .inr (.inl ⟨word, same.symm, rfl⟩)
      | some word' =>
        rcases append_separator_eq same with ⟨rfl, rfl⟩ | ⟨between, rfl, rfl⟩ | ⟨between, rfl, rfl⟩
        · exact .inl ⟨rfl, rfl⟩
        · exact .inr (.inl ⟨between, rfl, rfl⟩)
        · exact .inr (.inr ⟨between, rfl, rfl⟩)
  · rintro (⟨rfl, rfl⟩ | ⟨word, rfl, rfl⟩ | ⟨word, rfl, rfl⟩)
    · rfl
    · rw [qualified_qualified]
    · rw [qualified_qualified]

/-- Two components that want one name both get their packages in front. -/
theorem usedPrefix?_of_same (inA : a ∈ components) (inB : b ∈ components) (different : a ≠ b)
    (same : baseName a = baseName b) :
    usedPrefix? components a = packagePrefix? a ∧ usedPrefix? components b = packagePrefix? b := by
  have both : [a, b] ⊆ components.filter (baseName · = baseName b) := by
    simp [inA, inB, same]
  have contended : Contended components b :=
    (List.subperm_of_subset (by simpa using different) both).length_le
  have contended' : Contended components a := by rwa [Contended, same]
  exact ⟨if_pos contended', if_pos contended⟩

theorem Collides.fieldName_eq (h : Collides components a b) (inA : a ∈ components)
    (inB : b ∈ components) (different : a ≠ b) :
    fieldName components a = fieldName components b := by
  rw [Aggregate.fieldName_eq, Aggregate.fieldName_eq, qualified_eq_iff]
  cases h with
  | alike name packages =>
    obtain ⟨usedA, usedB⟩ := usedPrefix?_of_same inA inB different name
    exact .inl ⟨name, by rw [usedA, usedB, packages]⟩
  | overlapping word name packages => exact .inr (.inl ⟨word, name, packages⟩)

/-- Names agree by a collision and for no other reason. -/
theorem fieldName_eq_iff (inA : a ∈ components) (inB : b ∈ components) (different : a ≠ b) :
    fieldName components a = fieldName components b ↔
      Collides components a b ∨ Collides components b a := by
  constructor
  · rw [fieldName_eq, fieldName_eq, qualified_eq_iff]
    rintro (⟨name, packages⟩ | ⟨word, name, packages⟩ | ⟨word, name, packages⟩)
    · obtain ⟨usedA, usedB⟩ := usedPrefix?_of_same inA inB different name
      exact .inl (.alike name (usedA ▸ usedB ▸ packages))
    · exact .inl (.overlapping word name packages)
    · exact .inr (.overlapping word name packages)
  · rintro (collides | collides)
    · exact collides.fieldName_eq inA inB different
    · exact (collides.fieldName_eq inB inA different.symm).symm

end MiddlewareStack.Aggregate

namespace MiddlewareStack

open Aggregate

variable {t : Table} {c : Conventions} {s : CompiledStack}

/-- The fields of an aggregate are named after the components, and the names are distinct exactly if
no two components collide. -/
theorem field_names_distinct_iff {scope name : String}
    (compiled : t.compile c scope name = .ok s) :
    (∀ table config a, Aggregate.ofStack s table config = .ok a →
      a.fields.map Field.name = s.graph.components.map (fieldName s.graph.components)) ∧
    ((s.graph.components.map (fieldName s.graph.components)).Nodup ↔
      ∀ a ∈ s.graph.components, ∀ b ∈ s.graph.components, a ≠ b →
        ¬Collides s.graph.components a b) := by
  obtain ⟨package, _, result⟩ := Table.compile_ok compiled
  have once : s.graph.components.Nodup := List.Nodup.of_map _ result.settled.nodup
  refine ⟨fun table config a rendered => ?_, ?_⟩
  · rw [(ofStack_eq_ok rendered).1, result.orderedComponents_eq, List.map_map]
    rfl
  · rw [List.nodup_map_iff_inj_on once]
    constructor
    · intro injective a inA b inB different collides
      exact different (injective a inA b inB (collides.fieldName_eq inA inB different))
    · intro apart a inA b inB same
      by_contra different
      rcases (fieldName_eq_iff inA inB different).mp same with collides | collides
      · exact apart a inA b inB different collides
      · exact apart b inB a inA (Ne.symm different) collides

theorem diamond_field_names_distinct :
    (diamondGraph.components.map (fieldName diamondGraph.components)).Nodup ∧
      ∀ a ∈ diamondGraph.components, ∀ b ∈ diamondGraph.components, a ≠ b →
        ¬Collides diamondGraph.components a b := by
  have compiled : diamond.compile {} "self" "Root" = .ok (.ofRange diamondGraph) := by
    decide +kernel
  have distinct : (diamondGraph.components.map (fieldName diamondGraph.components)).Nodup := by
    decide +kernel
  exact ⟨distinct, (field_names_distinct_iff compiled).2.mp distinct⟩

/-- Two spellings of one name. -/
def twoSpellings : Table :=
  ((Table.empty.addStack "Root" ["HTTPAuth", "HttpAuth"]).addCapability "HTTPAuth"
    none).addCapability "HttpAuth" none

/-- A capability `Auth` in a package `a`, and `Auth` and `A_Auth` at the top level. -/
def packageInName : Table :=
  let inner : QualifiedName := { package := "self::a", name := "Auth" }
  let outer : Table := (Table.empty.addCapability "Auth" none).addCapability "A_Auth" none
  ((outer.insert inner (.interface {})).insert (inner.sibling "AuthMiddleware")
    (.concrete { methods := [runAlone] })).insert { package := "self", name := "Root" }
      (.interface { embeds := [.declared inner, .declared { package := "self", name := "Auth" },
        .declared { package := "self", name := "A_Auth" }] })

/-- Two components share a field name if their names differ in case only, and if one has the other's
package for its first word. -/
theorem field_names_collide :
    (∃ s, twoSpellings.compile {} "self" "Root" = .ok s ∧
      s.graph.components.map (fieldName s.graph.components) =
        ["http_auth_middleware", "http_auth_middleware"]) ∧
    ∃ s, packageInName.compile {} "self" "Root" = .ok s ∧
      s.graph.components.map (fieldName s.graph.components) =
        ["a_auth_middleware", "auth_middleware", "a_auth_middleware"] := by
  have spelled : (twoSpellings.compile {} "self" "Root").toOption.map (fun s =>
      s.graph.components.map (fieldName s.graph.components)) =
      some ["http_auth_middleware", "http_auth_middleware"] := by decide +kernel
  have prefixed : (packageInName.compile {} "self" "Root").toOption.map (fun s =>
      s.graph.components.map (fieldName s.graph.components)) =
      some ["a_auth_middleware", "auth_middleware", "a_auth_middleware"] := by decide +kernel
  exact ⟨exists_ok_of_read spelled, exists_ok_of_read prefixed⟩

end MiddlewareStack
