import MiddlewareStack.Proofs.Names
import MiddlewareStack.Source.Grammar

/-!
# The names in the items of a file

What a reader leaves is a rest of what there was, so that the names in it are still names. The items
that a source text is read as therefore declare names, and import paths of names.
-/

namespace MiddlewareStack.Source

variable {α β : Type} {P : α → Prop} {Q : β → Prop}

namespace TokenReader

/-- What is read from tokens whose names are names has a property. -/
def Yields (reader : TokenReader α) (P : α → Prop) : Prop :=
  ∀ tokens value rest, AllNamed tokens → reader.run tokens = some (value, rest) → P value

variable {reader : TokenReader α} {next : α → TokenReader β}

theorem named_rest {tokens rest : List Token} {value : α} (named : AllNamed tokens)
    (h : reader.run tokens = some (value, rest)) : AllNamed rest :=
  fun token member => named token ((reader.leaves_suffix h).subset member)

namespace Yields

theorem andThen (first : reader.Yields P) (then_ : ∀ value, P value → (next value).Yields Q) :
    (reader >>= next).Yields Q := by
  intro tokens value rest named h
  change (TokenReader.andThen reader next).run tokens = _ at h
  unfold TokenReader.andThen at h
  dsimp only at h
  split at h
  · next found =>
    exact then_ _ (first _ _ _ named found) _ _ _ (named_rest named found) h
  · cases h

theorem ignore (h : ∀ value, (next value).Yields Q) : (reader >>= next).Yields Q :=
  andThen (P := fun _ => True) (fun _ _ _ _ _ => trivial) fun value _ => h value

theorem give {value : α} (h : P value) : (pure value : TokenReader α).Yields P := by
  intro _ _ _ _ found
  cases found
  exact h

theorem fail : (failure : TokenReader α).Yields P := by
  intro _ _ _ _ found
  cases found

theorem imp {P' : α → Prop} (h : reader.Yields P) (weaker : ∀ value, P value → P' value) :
    reader.Yields P' := fun tokens value rest named found =>
  weaker value (h tokens value rest named found)

end Yields

theorem next_yields : TokenReader.next.Yields Token.Named := by
  intro tokens value rest named h
  cases tokens with
  | nil => cases h
  | cons first rest =>
    cases h
    exact named _ List.mem_cons_self

theorem anyName_yields : anyName.Yields IsName := by
  refine next_yields.andThen fun token named => ?_
  cases named with
  | ident isName => exact .give isName
  | punct | literal | group => exact .fail

theorem content_yields (d : Delimiter) : (content d).Yields AllNamed := by
  refine .ignore fun _ => next_yields.andThen fun token named => ?_
  cases named with
  | group _ inside => exact .give inside
  | ident | punct | literal => exact .fail

theorem within_yields {tokens : List Token} (named : AllNamed tokens) (h : reader.Yields P) :
    (within tokens reader).Yields P := by
  unfold within
  split
  · next found => exact .give (h _ _ _ named found)
  · exact .fail

theorem inside_yields (d : Delimiter) (h : reader.Yields P) : (inside d reader).Yields P :=
  (content_yields d).andThen fun _ named => within_yields named h

theorem whileAheadFrom_yields (test : List Token → Bool) (h : reader.Yields P) :
    ∀ bound, (whileAheadFrom test reader bound).Yields fun values => ∀ value ∈ values, P value
  | [] => by
    refine .ignore fun more => ?_
    split
    · exact .fail
    · exact .give (List.forall_mem_nil _)
  | _ :: bound => by
    refine .ignore fun more => ?_
    split
    · refine h.andThen fun first holds => ?_
      refine (whileAheadFrom_yields test h bound).andThen fun others hold => ?_
      exact .give (List.forall_mem_cons.mpr ⟨holds, hold⟩)
    · exact .give (List.forall_mem_nil _)

theorem whileAhead_yields (test : List Token → Bool) (h : reader.Yields P) :
    (whileAhead test reader).Yields fun values => ∀ value ∈ values, P value :=
  .ignore fun tokens => whileAheadFrom_yields test h tokens

theorem separatedFrom_yields (stop : List Token → Bool) (separator : String) (h : reader.Yields P) :
    ∀ bound, (separatedFrom stop separator reader bound).Yields fun found =>
      ∀ value ∈ found.1, P value
  | [] => by
    refine .ignore fun stopped => ?_
    split
    · exact .give (List.forall_mem_nil _)
    · exact .fail
  | _ :: bound => by
    refine .ignore fun stopped => ?_
    split
    · exact .give (List.forall_mem_nil _)
    · refine h.andThen fun first holds => .ignore fun separated => ?_
      split
      · refine (separatedFrom_yields stop separator h bound).andThen fun others hold => ?_
        exact .give (List.forall_mem_cons.mpr ⟨holds, hold⟩)
      · exact .give (List.forall_mem_singleton.mpr holds)

theorem separated_yields (stop : List Token → Bool) (separator : String) (h : reader.Yields P) :
    (separated stop separator reader).Yields fun found => ∀ value ∈ found.1, P value :=
  .ignore fun tokens => separatedFrom_yields stop separator h tokens

/-- What is behind a test holds of it as well. -/
theorem require_andThen_yields {test : List Token → Bool} {reader : TokenReader α}
    (h : ∀ tokens value rest, AllNamed tokens → test tokens →
      reader.run tokens = some (value, rest) →
      P value) : (require test >>= fun _ => reader).Yields P := by
  intro tokens value rest named found
  by_cases holds : test tokens
  · refine h tokens value rest named holds ?_
    simpa [require, bind, andThen, remaining, pure, give, holds] using found
  · simp [require, bind, andThen, remaining, failure, holds] at found

theorem anyName_of_test {test : List Token → Bool} {R : String → Prop}
    (h : ∀ name rest, test (.ident name :: rest) → R name) :
    (require test >>= fun _ => anyName).Yields fun name => IsName name ∧ R name := by
  refine require_andThen_yields fun tokens name rest named holds found => ?_
  refine ⟨anyName_yields _ _ _ named found, ?_⟩
  cases tokens with
  | nil => cases found
  | cons first behind =>
    cases first with
    | ident first =>
      cases found
      exact h _ _ holds
    | punct | literal | group => cases found

end TokenReader

/-! ## Copiers -/

namespace Copier

open TokenReader

def Yields (copier : Copier α) (P : α → Prop) : Prop :=
  ∀ copy, (StateT.run copier copy).Yields fun result => P result.1

variable {copier : Copier α} {next : α → Copier β}

namespace Yields

theorem andThen (first : Copier.Yields copier P) (then_ : ∀ value, P value → (next value).Yields Q) :
    Copier.Yields (copier >>= next) Q := fun copy =>
  (first copy).andThen fun result holds => then_ result.1 holds result.2

theorem ignore (h : ∀ value, Copier.Yields (next value) Q) : Copier.Yields (copier >>= next) Q :=
  andThen (P := fun _ => True) (fun _ _ _ _ _ _ => trivial) fun value _ => h value

theorem give {value : α} (h : P value) : Copier.Yields (pure value) P := fun _ =>
  TokenReader.Yields.give h

theorem fail : Copier.Yields (failure : Copier α) P := fun _ => TokenReader.Yields.fail

theorem map {f : α → β} (h : Copier.Yields copier fun value => Q (f value)) :
    Copier.Yields (f <$> copier) Q := fun copy =>
  (h copy).andThen fun _ holds => TokenReader.Yields.give holds

theorem ite {test : Prop} [Decidable test] {one other : Copier α} (h : Copier.Yields one P)
    (h' : Copier.Yields other P) : Copier.Yields (if test then one else other) P := by
  split
  · exact h
  · exact h'

theorem lift {reader : TokenReader α} (h : reader.Yields P) :
    Copier.Yields (liftM reader : Copier α) P := fun _ =>
  h.andThen fun _ holds => TokenReader.Yields.give holds

theorem imp {P' : α → Prop} (h : Copier.Yields copier P) (weaker : ∀ value, P value → P' value) :
    Copier.Yields copier P' := fun copy => (h copy).imp fun _ => weaker _

end Yields

theorem result_yields (h : Copier.Yields copier P) : copier.result.Yields fun found => P found.1 :=
  (h {}).andThen fun _ holds => TokenReader.Yields.give holds

theorem orAsItStands_yields {copier : Copier (Option α)}
    (h : Copier.Yields copier fun value? => ∀ value ∈ value?, P value) :
    Copier.Yields (orAsItStands copier) fun value? => ∀ value ∈ value?, P value := by
  refine .ignore fun before => (Yields.lift (result_yields h)).andThen fun found holds => ?_
  exact .ite (.ignore fun _ => .give holds) (.ignore fun _ => .ignore fun _ => .give holds)

theorem takeIdent_yields {reader : TokenReader String} {P : String → Prop}
    (h : reader.Yields P) : (takeIdent reader).Yields P :=
  (Yields.lift h).andThen fun _ holds => .ignore fun _ => .give holds

theorem takeInside_yields (d : Delimiter) (h : Copier.Yields copier P) :
    (takeInside d copier).Yields P :=
  (Yields.lift (inside_yields d (result_yields h))).andThen fun _ holds =>
    .ignore fun _ => .give holds

theorem takeToEnd_yields (h : Copier.Yields copier P) :
    (takeToEnd copier).Yields fun values => ∀ value ∈ values, P value := by
  refine (Yields.lift (whileAhead_yields _ (result_yields h))).andThen fun items hold => ?_
  exact .ignore fun _ => .give (List.forall_mem_map.mpr hold)

theorem takeCommaSeparated_yields (h : Copier.Yields copier P) :
    (takeCommaSeparated copier).Yields fun values => ∀ value ∈ values, P value := by
  refine (Yields.lift (separated_yields _ _ (result_yields h))).andThen fun found hold => ?_
  exact .ignore fun _ => .give (List.forall_mem_map.mpr hold)

end Copier

/-! ## Imports -/

/-- Every name in a tree is a name. -/
inductive UseTree.Named : UseTree → Prop
  | path {name : String} {tree : UseTree} (isName : IsName name) (named : tree.Named) :
    Named (.path name tree)
  | name {name : String} (isName : IsName name) : Named (.name name)
  | rename {name newName : String} (isName : IsName name) (isNew : IsName newName) :
    Named (.rename name newName)
  | glob : Named .glob
  | group {trees : List UseTree} (named : ∀ tree ∈ trees, tree.Named) : Named (.group trees)

theorem eq_map_some_of_mapM_id {values : List (Option α)} {all : List α}
    (h : values.mapM id = some all) : values = all.map some := by
  induction values generalizing all with
  | nil =>
    cases h
    rfl
  | cons first rest ih =>
    rw [List.mapM_cons] at h
    obtain ⟨value, found, h⟩ := Option.bind_eq_some_iff.mp h
    obtain ⟨others, complete, h⟩ := Option.bind_eq_some_iff.mp h
    cases h
    rw [ih complete, List.map_cons]
    exact congrArg (· :: _) found

open Copier in
theorem useGroup_yields {tree : Bool → Copier (Option UseTree)}
    (h : ∀ rootAllowed, (tree rootAllowed).Yields fun tree? => ∀ tree ∈ tree?, tree.Named)
    (rootAllowed : Bool) :
    (useGroup tree rootAllowed).Yields fun tree? => ∀ tree ∈ tree?, tree.Named := by
  have one : Copier.Yields (do
      let rooted ← if rootAllowed then takeOperatorIf "::" else pure false
      let tree ← tree (rootAllowed && !rooted)
      return if rooted then none else tree) fun tree? => ∀ tree ∈ tree?, tree.Named := by
    have behind : ∀ rooted : Bool, Copier.Yields (do
        let tree ← tree (rootAllowed && !rooted)
        return if rooted then none else tree) fun tree? => ∀ tree ∈ tree?, tree.Named := by
      refine fun rooted => (h _).andThen fun tree? named => .give ?_
      cases rooted
      · exact named
      · simp
    exact .ite (.ignore behind) (.ignore behind)
  refine (takeCommaSeparated_yields one).andThen fun trees named => .give ?_
  intro tree found
  obtain ⟨all, complete, rfl⟩ := Option.map_eq_some_iff.mp found
  rw [eq_map_some_of_mapM_id complete] at named
  exact .group fun tree member => named _ (List.mem_map_of_mem member) tree rfl

theorem useName_yields : useName.Yields IsName :=
  .ignore fun _ => TokenReader.anyName_yields

open Copier in
theorem useTreeWithin_yields :
    ∀ depth rootAllowed, (useTreeWithin depth rootAllowed).Yields fun tree? =>
      ∀ tree ∈ tree?, tree.Named
  | 0, _ => .fail
  | depth + 1, rootAllowed => by
    have behindName : ∀ name, IsName name → Copier.Yields
        (useRest (useTreeWithin depth false) name) fun tree? => ∀ tree ∈ tree?, tree.Named := by
      intro name isName
      refine .ignore fun separated => .ite ?_ (.ignore fun renamed => .ite ?_ (.give ?_))
      · refine (useTreeWithin_yields depth false).andThen fun tree? named => .give ?_
        intro tree found
        obtain ⟨behind, inside, rfl⟩ := Option.map_eq_some_iff.mp found
        exact .path isName (named behind inside)
      · have newName : TokenReader.nameOrUnderscore.Yields IsName :=
          .ignore fun _ => TokenReader.anyName_yields
        refine (takeIdent_yields newName).andThen fun newName isNew => .give ?_
        rintro _ ⟨⟩
        exact .rename isName isNew
      · rintro _ ⟨⟩
        exact .name isName
    refine .ignore fun tokens => .ite (.ignore fun _ => .give ?_) (.ite ?_ ?_)
    · rintro _ ⟨⟩
      exact .glob
    · exact takeInside_yields _ (useGroup_yields (useTreeWithin_yields depth) rootAllowed)
    · exact (takeIdent_yields useName_yields).andThen behindName

open Copier in
theorem useTree_yields : useTree.Yields fun tree? => ∀ tree ∈ tree?, tree.Named := by
  refine .ignore fun _ => .ignore fun rooted => .ignore fun tokens => ?_
  exact (useTreeWithin_yields _ _).andThen fun tree? named => .ignore fun _ => .give named

/-- A name brought into scope, and the path it stands for. -/
def Import.Named (found : Import) : Prop :=
  IsName found.1 ∧ ∀ name ∈ found.2, IsName name

theorem mem_importsOfAll {before : List String} {trees : List UseTree} {found : Import} :
    found ∈ importsOfAll before trees ↔ ∃ tree ∈ trees, found ∈ tree.importsBehind before := by
  induction trees with
  | nil => simp [importsOfAll]
  | cons first rest ih => simp [importsOfAll, ih]

theorem UseTree.Named.importsBehind {tree : UseTree} (h : tree.Named) {before : List String}
    (named : ∀ name ∈ before, IsName name) : ∀ found ∈ tree.importsBehind before, found.Named := by
  have extended : ∀ {name}, IsName name → ∀ x ∈ before ++ [name], IsName x := fun isName =>
    List.forall_mem_append.mpr ⟨named, List.forall_mem_singleton.mpr isName⟩
  induction h generalizing before with
  | path isName _ ih => exact ih (extended isName) fun isName' =>
      List.forall_mem_append.mpr ⟨extended isName, List.forall_mem_singleton.mpr isName'⟩
  | @name name isName =>
    unfold UseTree.importsBehind lastImport
    split
    · split
      · next last isLast =>
        exact List.forall_mem_singleton.mpr ⟨named _ (List.mem_of_getLast? isLast), named⟩
      · exact List.forall_mem_nil _
    · exact List.forall_mem_singleton.mpr ⟨isName, extended isName⟩
  | rename isName isNew =>
    unfold UseTree.importsBehind renamedImport
    split
    · exact List.forall_mem_nil _
    · split
      · exact List.forall_mem_singleton.mpr ⟨isNew, named⟩
      · exact List.forall_mem_singleton.mpr ⟨isNew, extended isName⟩
  | glob => exact List.forall_mem_nil _
  | group _ ih =>
    intro found member
    obtain ⟨tree, inside, member⟩ := mem_importsOfAll.mp member
    exact ih tree inside named extended found member

theorem UseTree.Named.imports {tree : UseTree} (h : tree.Named) :
    ∀ found ∈ tree.imports, found.Named :=
  h.importsBehind (List.forall_mem_nil _)

/-! ## Items -/

/-- A name that an item may have, which is no reserved word but for one. -/
def IsItemName (name : String) : Prop :=
  IsName name ∧ (name ∈ reservedWords → name = "try")

/-- The names of an item and of the items inside it, and those in what it imports, are names. -/
inductive Item.Named : Item → Prop
  | interface {name : String} {embeds : List Bound} {methods : List Signature}
      (isName : IsItemName name) : Named (.interface name embeds methods)
  | concrete {name : String} (isName : IsItemName name) : Named (.concrete name)
  | synonym {name : String} (isName : IsItemName name) : Named (.synonym name)
  | implementation {type : TypeExpr} {methods : List Signature} :
    Named (.implementation type methods)
  | module {name : String} {items : List Item} (isName : IsItemName name)
      (inside : ∀ item ∈ items, item.Named) : Named (.module name items)
  | distantModule {name : String} (isName : IsItemName name) : Named (.distantModule name)
  | imports {tree : UseTree} (named : tree.Named) : Named (.imports tree)
  | other : Named .other

namespace Copier

theorem takeName_yields : takeName.Yields IsItemName := by
  refine takeIdent_yields ((TokenReader.anyName_of_test fun name rest holds => ?_).imp
    fun name found => ⟨found.1, fun reserved => absurd reserved found.2⟩)
  simpa [Lookahead.name] using holds

section Inner

variable (inner : Inner)

theorem takeBraced_yields {item : Copier (Option α)}
    (h : item.Yields fun value? => ∀ value ∈ value?, P value) :
    (takeBraced inner item).Yields fun values => ∀ value ∈ values, P value := by
  refine takeInside_yields _ (.ignore fun _ => ?_)
  refine (takeToEnd_yields (orAsItStands_yields h)).andThen fun values hold => .give ?_
  intro value member
  obtain ⟨value?, among, rfl⟩ := List.mem_filterMap.mp member
  exact hold _ among value rfl

theorem typeDefinition_yields (place : ConditionsPlace) :
    (typeDefinition inner place).Yields fun found => IsItemName found.name := by
  refine .ignore fun _ => takeName_yields.andThen fun name isName => ?_
  refine .ignore fun _ => .ignore fun bounds => ?_
  have done : ∀ isDefined, Copier.Yields
      (pure { name, isBounded := bounds.1, isDefined } : Copier TypeDefinition)
        fun found => IsItemName found.name := fun _ => .give isName
  exact .ite
    (.ignore fun _ => .ignore fun _ => .ite
      (.ignore fun _ => .ite (.ignore fun _ => done _) (.ignore fun _ => .ignore fun _ => done _))
      (.ite (.ignore fun _ => done _) (.ignore fun _ => .ignore fun _ => done _)))
    (.ignore fun _ => .ignore fun _ => .ite
      (.ignore fun _ => .ite (.ignore fun _ => done _) (.ignore fun _ => .ignore fun _ => done _))
      (.ite (.ignore fun _ => done _) (.ignore fun _ => .ignore fun _ => done _)))

theorem structureItem_yields : (structureItem inner).Yields IsItemName := by
  refine .ignore fun _ => takeName_yields.andThen fun name isName => ?_
  have done : Copier.Yields (pure name) IsItemName := .give isName
  refine .ignore fun _ => .ignore fun _ => .ite (.ignore fun _ => .ignore fun _ => ?_) ?_
  · exact .ignore fun _ => done
  · exact .ignore fun _ => .ignore fun _ => .ite (.ignore fun _ => done) (.ignore fun _ => done)

theorem enumerationItem_yields : (enumerationItem inner).Yields IsItemName := by
  refine .ignore fun _ => takeName_yields.andThen fun name isName => ?_
  exact .ignore fun _ => .ignore fun _ => .ignore fun _ => .give isName

theorem unionItem_yields : (unionItem inner).Yields IsItemName := by
  refine .ignore fun _ => takeName_yields.andThen fun name isName => ?_
  exact .ignore fun _ => .ignore fun _ => .ignore fun _ => .give isName

theorem interfaceItem_yields : (interfaceItem inner).Yields Item.Named := by
  refine .ignore fun _ => .ignore fun _ => .ignore fun _ => takeName_yields.andThen
    fun name isName => .ignore fun _ => .ignore fun isAlias => .ite ?_ ?_
  · exact .ignore fun _ => .ignore fun _ => .ignore fun _ => .give .other
  · exact .ignore fun _ => .ignore fun _ => .ignore fun _ => .give (.interface isName)

/-- What may not count as an item. -/
abbrev YieldsItem (copier : Copier (Option Item)) : Prop :=
  copier.Yields fun item? => ∀ item ∈ item?, item.Named

theorem YieldsItem.some {copier : Copier Item} (h : copier.Yields Item.Named) :
    YieldsItem (Option.some <$> copier) :=
  .map (h.imp fun item named => by rintro _ ⟨⟩; exact named)

theorem YieldsItem.give {item? : Option Item} (h : ∀ item ∈ item?, item.Named) :
    YieldsItem (pure item?) :=
  Yields.give h

theorem forall_mem_ite_some {test : Prop} [Decidable test] {item : Item} (h : item.Named) :
    ∀ found ∈ if test then some item else none, found.Named := by
  split
  · rintro _ ⟨⟩
    exact h
  · simp

theorem implementationItem_yields (visible : Bool) :
    YieldsItem (implementationItem inner visible) := by
  refine .ignore fun _ => .ignore fun _ => .ignore fun _ => .ignore fun generic => ?_
  have behindMark : ∀ const type methods, YieldsItem (pure
      (if (visible || const) = true then none
        else Option.map (fun type => Item.implementation type methods) type)) := by
    refine fun const type methods => .give fun item found => ?_
    split at found
    · cases found
    · obtain ⟨type, _, rfl⟩ := Option.map_eq_some_iff.mp found
      exact .implementation
  have behindGenerics : ∀ const, YieldsItem (do
      let tokens ← liftM TokenReader.remaining
      let negative :=
        Lookahead.operator "!" tokens && !Lookahead.group .brace (Lookahead.rest tokens)
      if negative then takeOperator "!"
      let type ← implementedType inner negative
      let _ ← takeConditions inner
      let methods ← members inner (implementationMember inner)
      return if visible || const then none
        else type.map fun type => .implementation type methods) :=
    fun const => .ignore fun tokens => .ite
      (.ignore fun _ => .ignore fun _ => .ignore fun _ => .ignore fun _ => behindMark _ _ _)
      (.ignore fun _ => .ignore fun _ => .ignore fun _ => behindMark _ _ _)
  exact .ite (.ignore fun _ => .ignore behindGenerics) (.ignore behindGenerics)

theorem functionItem_yields : YieldsItem (functionItem inner) := by
  refine .ignore fun _ => .ignore fun ended => .ite (.give (by simp)) (.ignore fun _ => .give ?_)
  rintro _ ⟨⟩
  exact .other

theorem moduleItem_yields {item : Copier Item} (h : item.Yields Item.Named) :
    (moduleItem inner item).Yields Item.Named := by
  refine .ignore fun _ => .ignore fun _ => ?_
  have name : (do
      TokenReader.require fun tokens => Lookahead.name tokens || Lookahead.word "try" tokens
      TokenReader.anyName).Yields IsItemName := by
    refine TokenReader.anyName_of_test (R := fun name => name ∈ reservedWords → name = "try")
      fun name rest holds reserved => ?_
    simpa [Lookahead.name, Lookahead.word, reserved] using holds
  refine (takeIdent_yields name).andThen fun name isName => .ignore fun ended => .ite ?_ ?_
  · exact .give (.distantModule isName)
  · exact (takeBraced_yields inner (YieldsItem.some h)).andThen fun items named =>
      .give (.module isName named)

theorem itemBehind_yields {item : Copier Item} (h : item.Yields Item.Named) (visible : Bool) :
    YieldsItem (itemBehind inner item visible) := by
  have other : ∀ copier : Copier Unit, YieldsItem (do
      copier
      return some .other) := by
    refine fun _ => .ignore fun _ => .give ?_
    rintro _ ⟨⟩
    exact .other
  have concrete : ∀ {copier : Copier String}, copier.Yields IsItemName → YieldsItem (do
      return some (.concrete (← copier))) := by
    refine fun named => named.andThen fun name isName => .give ?_
    rintro _ ⟨⟩
    exact .concrete isName
  have interface := YieldsItem.some (interfaceItem_yields inner)
  have implementation := implementationItem_yields inner visible
  have submodule := YieldsItem.some (moduleItem_yields inner h)
  refine .ignore fun tokens => .ite (functionItem_yields inner) (.ite ?foreign (.ite ?imported
    (.ite ?global (.ite ?constant (.ite ?guarded (.ite submodule (.ite ?synonym
    (.ite (concrete (structureItem_yields inner)) (.ite (concrete (enumerationItem_yields inner))
    (.ite (concrete (unionItem_yields inner)) (.ite interface (.ite implementation
    (.ite ?declaration (.ite ?hidden (other _)))))))))))))))
  case foreign => exact .ite (other _) (.ite .fail (other _))
  case imported =>
    refine useTree_yields.andThen fun tree? named => .give fun item found => ?_
    obtain ⟨tree, imported, rfl⟩ := Option.map_eq_some_iff.mp found
    exact .imports (named tree imported)
  case global => exact .ignore fun _ => .give (forall_mem_ite_some .other)
  case constant => exact .ignore fun _ => .give (forall_mem_ite_some .other)
  case guarded =>
    exact .ite interface (.ite implementation (.ite (.ite .fail (other _)) submodule))
  case synonym =>
    exact (typeDefinition_yields inner _).andThen fun found isName =>
      .give (forall_mem_ite_some (.synonym isName))
  case declaration => exact .ignore fun _ => .give (by simp)
  case hidden => exact .ignore fun _ => other _

theorem itemWithin_yields : ∀ depth, (itemWithin inner depth).Yields Item.Named
  | 0 => .fail
  | depth + 1 => by
    have item : YieldsItem (do
        takeAttributes inner
        let visible ← visibility
        itemBehind inner (itemWithin inner depth) visible) :=
      .ignore fun _ => .ignore fun visible =>
        itemBehind_yields inner (itemWithin_yields depth) visible
    refine (orAsItStands_yields item).andThen fun item? named => .give ?_
    cases item? with
    | none => exact .other
    | some item => exact named item rfl

end Inner

end Copier

open TokenReader in
theorem itemsOf?_named {tokens : List Token} {items : List Item} (named : AllNamed tokens)
    (h : itemsOf? tokens = some items) : ∀ item ∈ items, item.Named := by
  have item : (do
      return (← (itemWithin (innerOf tokens) (Token.countAll tokens + 1)).result).1).Yields
        Item.Named :=
    (Copier.result_yields (Copier.itemWithin_yields _ _)).andThen fun _ holds => .give holds
  obtain ⟨⟨found, rest⟩, read, rfl⟩ := Option.map_eq_some_iff.mp h
  refine within_yields (P := fun items => ∀ item ∈ items, item.Named) named ?_ _ _ _
    (List.forall_mem_nil _) read
  exact .ignore fun _ => whileAhead_yields _ item

/-- The items of a source text have names for names. -/
theorem parse?_named {text : String} {items : List Item} (h : parse? text = some items) :
    ∀ item ∈ items, item.Named := by
  obtain ⟨tokens, scanned, read⟩ := Option.bind_eq_some_iff.mp h
  exact itemsOf?_named (scan?_named scanned) read

end MiddlewareStack.Source
