import Mathlib.Algebra.Order.BigOperators.Group.List
import MiddlewareStack.Resolution

/-!
# What a table holds

The three answers a table gives for a name, the package it gives for a scope, and the number of its
symbols as a bound: whoever meets a new symbol of the table has one less to meet. A table whose
declarations are rewritten one by one gives rewritten answers.
-/

namespace MiddlewareStack.Table

variable {t : Table} {q : QualifiedName}

theorem contract_eq_ok {i : Interface} : t.contract q = .ok i ↔ t.interface? q = some i := by
  unfold contract interface?
  cases t.lookup q with
  | none => simp
  | some d => cases d <;> simp [Declaration.interface?]

theorem isSome_interface?_of_contract {i : Interface} (found : t.contract q = .ok i) :
    (t.interface? q).isSome := by
  rw [contract_eq_ok.mp found]
  rfl

/-- A scope stands for the package of that path, if there is one. -/
theorem packagesMatching_eq (scope : String) :
    t.packagesMatching scope = if t.packages.contains scope then [scope] else [] := by
  have isKey : scope ∈ t.packages.keys ↔ t.packages.contains scope := KeyedMap.mem_keys_iff
  rw [packagesMatching, List.filter_eq, t.packages.nodup_keys.count]
  by_cases present : scope ∈ t.packages.keys
  · simp [present, isKey.mp present]
  · simp [present, mt isKey.mpr present]

theorem packagesMatching_eq_singleton {scope package : String} :
    t.packagesMatching scope = [package] ↔ package = scope ∧ t.packages.contains scope := by
  rw [packagesMatching_eq]
  split
  · next present => simp [present, eq_comm]
  · next absent => simp [absent]

/-- A name fails as a contract for want of a symbol or because its symbol is something else. -/
theorem contract_eq_error {e : CompileError} (h : t.contract q = .error e) :
    (t.lookup q = none ∧ e = .symbolNotFound q) ∨
      ((t.lookup q).isSome ∧ t.interface? q = none ∧ e = .notAnInterface q) := by
  unfold contract at h
  unfold interface?
  cases found : t.lookup q with
  | none => simp_all
  | some d => cases d <;> simp_all [Declaration.interface?]

theorem lookup_isSome_of_interface? {i : Interface} (h : t.interface? q = some i) :
    (t.lookup q).isSome := by
  unfold interface? at h
  obtain ⟨d, found, _⟩ := Option.bind_eq_some_iff.mp h
  simp [found]

/-- The names under which the table holds its symbols. -/
def symbolNames (t : Table) : List QualifiedName :=
  t.packages.entries.flatMap fun entry =>
    entry.2.symbols.entries.map fun symbol => { package := entry.1, name := symbol.1 }

theorem length_symbolNames (t : Table) : t.symbolNames.length = t.symbolCount := by
  have counted : ∀ (packages : List Package) (start : Nat),
      packages.foldl (fun count package => count + package.symbols.size) start =
        start + (packages.map fun package => package.symbols.size).sum := by
    intro packages
    induction packages with
    | nil => simp
    | cons package rest ih =>
      intro start
      rw [List.foldl_cons, ih, List.map_cons, List.sum_cons]
      omega
  rw [symbolCount, counted, symbolNames, List.length_flatMap]
  simp [KeyedMap.values, KeyedMap.size, Function.comp_def]

theorem mem_symbolNames (h : (t.lookup q).isSome) : q ∈ t.symbolNames := by
  obtain ⟨d, found⟩ := Option.isSome_iff_exists.mp h
  simp only [lookup, bind, Option.bind_eq_some_iff] at found
  obtain ⟨package, inTable, symbol, inPackage, _⟩ := found
  have packageMem := KeyedMap.mem_entries_of_find? inTable
  have symbolMem := KeyedMap.mem_entries_of_find? inPackage
  exact List.mem_flatMap.mpr ⟨_, packageMem, List.mem_map.mpr ⟨_, symbolMem, rfl⟩⟩

/-- How many symbols of the table are not among some names. -/
def unmet (t : Table) (met : List QualifiedName) : Nat :=
  t.symbolNames.countP (· ∉ met)

theorem unmet_nil (t : Table) : t.unmet [] = t.symbolCount := by
  simp [unmet, ← length_symbolNames]

theorem countP_not_mem_le {met more : List QualifiedName} (h : met ⊆ more)
    (names : List QualifiedName) : names.countP (· ∉ more) ≤ names.countP (· ∉ met) := by
  refine List.countP_mono_left fun name _ absent => ?_
  simp only [decide_eq_true_eq] at absent ⊢
  exact fun present => absent (h present)

theorem unmet_le {met more : List QualifiedName} (h : met ⊆ more) : t.unmet more ≤ t.unmet met :=
  countP_not_mem_le h t.symbolNames

/-- Meeting a new symbol leaves fewer to meet. -/
theorem unmet_lt {met more : List QualifiedName} (h : met ⊆ more) (present : q ∈ more)
    (new : q ∉ met) (symbol : (t.lookup q).isSome) : t.unmet more < t.unmet met := by
  obtain ⟨before, after, split⟩ := List.append_of_mem (mem_symbolNames symbol)
  have front := countP_not_mem_le h before
  have back := countP_not_mem_le h after
  simp only [unmet, split, List.countP_append, List.countP_cons, present, new, not_true,
    not_false_eq_true, decide_true, decide_false, if_true]
  simp only [Bool.false_eq_true, if_false]
  omega

/-- A recursion that meets a new interface may be one level less deep from there. -/
theorem unmet_lt_depth {met more : List QualifiedName} {depth : Nat} (h : met ⊆ more)
    (present : q ∈ more) (new : q ∉ met) (isInterface : (t.interface? q).isSome)
    (bound : t.unmet met < depth + 1) : t.unmet more < depth := by
  obtain ⟨i, found⟩ := Option.isSome_iff_exists.mp isInterface
  have less := unmet_lt h present new (lookup_isSome_of_interface? found)
  omega

/-! ## Tables with rewritten declarations -/

section Rewritten

variable {t' : Table} {f : Declaration → Declaration} {g : Interface → Interface}
  {h : ConcreteType → ConcreteType}

/-- Rewriting the symbols of every package, each on its own. -/
theorem lookup_map {onPackage : Package → Package} (onSymbol : Symbol → Symbol)
    (symbols : ∀ package, (onPackage package).symbols = package.symbols.map onSymbol)
    (kinds : ∀ symbol, (onSymbol symbol).kind = f symbol.kind) :
    ({ packages := t.packages.map onPackage } : Table).lookup q = (t.lookup q).map f := by
  simp only [Table.lookup, KeyedMap.find?_map, bind, pure]
  cases t.packages.find? q.package with
  | none => rfl
  | some package =>
    simp only [Option.map_some, Option.bind_some, symbols, KeyedMap.find?_map]
    cases package.symbols.find? q.name <;> simp [kinds]

theorem packagesMatching_map (onPackage : Package → Package) (scope : String) :
    ({ packages := t.packages.map onPackage } : Table).packagesMatching scope =
      t.packagesMatching scope := by
  rw [packagesMatching, KeyedMap.keys_map, packagesMatching]

/-- Interfaces and types are rewritten each on their own. -/
structure Rewrites (f : Declaration → Declaration) (g : Interface → Interface)
    (h : ConcreteType → ConcreteType) : Prop where
  interface : ∀ i, f (.interface i) = .interface (g i)
  concrete : ∀ decl, f (.concrete decl) = .concrete (h decl)
  other : f .other = .other

variable (rewrites : Rewrites f g h) (lookup : t'.lookup q = (t.lookup q).map f)

include rewrites lookup

theorem interface?_rewritten : t'.interface? q = (t.interface? q).map g := by
  rw [interface?, lookup, interface?]
  cases t.lookup q with
  | none => rfl
  | some kind =>
    cases kind <;>
      simp [rewrites.interface, rewrites.concrete, rewrites.other, Declaration.interface?]

theorem concrete?_rewritten : t'.concrete? q = (t.concrete? q).map h := by
  rw [concrete?, lookup, concrete?]
  cases t.lookup q with
  | none => rfl
  | some kind =>
    cases kind <;>
      simp [rewrites.interface, rewrites.concrete, rewrites.other, Declaration.concrete?]

theorem contract_rewritten : t'.contract q = (t.contract q).map g := by
  rw [contract, lookup, contract]
  cases t.lookup q with
  | none => rfl
  | some kind =>
    cases kind <;> simp [rewrites.interface, rewrites.concrete, rewrites.other, Except.map]

/-- A name that is no contract fails for the same reason. -/
theorem contract_rewritten_eq_error {e : CompileError} :
    t'.contract q = .error e ↔ t.contract q = .error e := by
  rw [contract_rewritten rewrites lookup]
  cases t.contract q <;> simp [Except.map]

end Rewritten

end MiddlewareStack.Table
