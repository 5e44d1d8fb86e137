import MiddlewareStack.Proofs.ParameterNames
import MiddlewareStack.Proofs.PathGrammar
import MiddlewareStack.Proofs.RequestTypes

/-!
# Request types that methods can take

The request type of a configuration is compared as text with the path of what an invocation method
borrows. Taken as it is configured, in a module that does not know its first name, it is accepted
exactly if it is a path without a separator in front (`request_accepted_iff`): the path that a
reference keeps has none, so that no method takes a request type that has one.
-/

namespace MiddlewareStack

namespace Source

variable {first : String} {others : List String} {rooted : Bool} {type : TypeExpr}
  {index : ModuleIndex} {items : List Item} {package : String}

/-! ## What a configured type refers to -/

/-- What is no path refers to nothing of one. -/
theorem TypeExpr.IsPathless.path?_typeRef (h : type.IsPathless) :
    (index.typeRef package type).path? = none := by
  cases type with
  | traitObject marked bounds trailing | implTrait bounds trailing =>
    rw [ModuleIndex.typeRef]
    split <;> rfl
  | verbatim => rfl
  | reference | paren | path => cases h

/-- The module that a package is neither declares nor imports a name. -/
def IsFree (items : List Item) (package name : String) : Prop :=
  ∀ content, moduleItems? items package = some content →
    name ∉ declaredNames content ∧ name ∉ (content.flatMap Item.bindings).map Prod.fst

theorem expand_of_free (plain : first ∉ pathWords) (free : IsFree items package first) :
    (ModuleIndex.ofItems items).expand package (first :: others) =
      .elsewhere (first :: others) := by
  have known := find?_modules items package
  cases inside : moduleItems? items package with
  | none =>
    rw [inside] at known
    simp only [pathWords, List.mem_cons, List.not_mem_nil, or_false, not_or] at plain
    simp [ModuleIndex.expand, ModuleIndex.expandWithin, plain, known]
  | some content =>
    rw [inside] at known
    obtain ⟨undeclared, unbound⟩ := free content inside
    have noImport : (ModuleScope.ofItems content).imports.find? first = none := by
      rw [ModuleScope.find?_imports]
      exact lookup_reverse_eq_none unbound
    have noItem : (ModuleScope.ofItems content).items.contains first = false := by
      rw [KeyedMap.contains, ModuleScope.find?_items, lookup_reverse_eq_none undeclared]
      rfl
    rw [ModuleIndex.expand, expandWithin_of_own plain known (by simp [noImport]), noItem]
    rfl

/-- A path out of the file is known by its names alone, whether a separator stands in front or
not. -/
theorem path?_markedPath (areNames : ∀ name ∈ first :: others, IsName name)
    (plain : first ∉ pathWords) (free : IsFree items package first) :
    ((ModuleIndex.ofItems items).typeRef package
      (.path (markedPath rooted (first :: others)))).path? =
      some (Text.pathText (first :: others)) := by
  have names : (markedPath rooted (first :: others)).names = first :: others := names_barePath
  have leads : (ModuleIndex.ofItems items).target package (markedPath rooted (first :: others)) =
      .elsewhere (first :: others) := by
    rw [ModuleIndex.target, names]
    cases rooted with
    | true => rfl
    | false => exact expand_of_free plain free
  have bare : (markedPath rooted (first :: others)).arguments = .none := by
    rw [markedPath, PathExpr.arguments, List.getLast?_map, Option.map_map]
    cases (first :: others).getLast? <;> rfl
  have noBracket : ∀ c ∈ (Text.pathText (first :: others)).toList, (c != '<') = true := by
    intro c member
    rw [bne_iff_ne]
    rintro rfl
    rcases Text.mem_pathText member with colon | ⟨name, among, inside⟩
    · cases colon
    · exact (areNames name among).not_mem (by decide) (by decide) inside
  rw [ModuleIndex.typeRef, pathRef_of_elsewhere leads, bare, externalTo, TypeRef.path?,
    List.takeWhile_eq_self_iff.mpr noBracket, String.ofList_toList]

end Source

namespace Text

/-- The first name of a configured path. -/
def firstName (path : String) : String :=
  String.ofList ((splitSegments (dropLeadingSeparator path.toList)).headD [])

open Source (markedText_toList)

variable {first : String} {others : List String} {rooted : Bool}

theorem startsApart_of_isName (isName : Source.IsName first) : StartsApart first := by
  obtain ⟨c, rest, chars, continues, _⟩ := Source.isName_head isName
  exact ⟨c, rest, chars, Source.ne_of_isNameContinue continues (by decide)⟩

theorem markedText_prefix (areNames : ∀ name ∈ first :: others, Source.IsName name) :
    [':', ':'] <+: (markedText rooted (first :: others)).toList ↔ rooted :=
  prefix_markedText_iff (startsApart_of_isName (areNames first List.mem_cons_self))

theorem pathText_eq_markedText_iff {names : List String} :
    pathText names = markedText rooted names ↔ rooted = false := by
  rw [← String.toList_inj, markedText_toList]
  cases rooted with
  | false => simp
  | true =>
    refine iff_of_false (fun same => ?_) (by simp)
    rw [if_pos rfl, List.cons_append, List.cons_append, List.nil_append] at same
    have longer := congrArg List.length same
    simp only [List.length_cons] at longer
    omega

theorem firstName_markedText (areNames : ∀ name ∈ first :: others, Source.IsName name) :
    firstName (markedText rooted (first :: others)) = first := by
  have body : dropLeadingSeparator (markedText rooted (first :: others)).toList =
      (pathText (first :: others)).toList :=
    dropLeadingSeparator_markedText (startsApart_of_isName (areNames first List.mem_cons_self))
  have cut := Source.segments_pathText areNames (List.cons_ne_nil _ _)
  obtain ⟨head, tail, split, same, _⟩ := List.map_eq_cons_iff.mp cut
  rw [firstName, body, split]
  exact same

end Text

open Source

/-- A request type that methods can take as it is configured: no separator stands in front of it,
and it does not start like a type that is no path. -/
def Conventions.NamesRequest (c : Conventions) : Prop :=
  ¬[':', ':'] <+: c.requestType.toList ∧ Text.firstName c.requestType ∉ ["_", "dyn", "impl"]

instance (c : Conventions) : Decidable c.NamesRequest :=
  inferInstanceAs (Decidable (_ ∧ _))

theorem Config.isPath_requestType {config : Config} (valid : config.problems = []) :
    Text.isPath config.conventions.requestType.toList := by
  simp only [Config.problems, List.append_eq_nil_iff] at valid
  obtain ⟨⟨⟨_, noProblem⟩, _⟩, _⟩ := valid
  cases isPath : Text.isPath config.conventions.requestType.toList with
  | true => rfl
  | false =>
    rw [isPath] at noProblem
    exact absurd noProblem (List.cons_ne_nil _ _)

/-- Where a method takes one parameter only, it has to borrow the request. -/
theorem invocationBundle_eq_ok_none {t : Table} {requestType : String} {m : Method} {ty : TypeRef}
    (single : m.paramTypes = [ty]) :
    invocationBundle t requestType m = .ok none ↔ BorrowsRequest requestType ty := by
  obtain ⟨p, params, rfl⟩ := List.map_eq_singleton_iff.mp single
  unfold invocationBundle
  simp only [params]
  split <;> simp_all

/-- A method of any file, in a module that does not know the first name of the configured request
type, takes a borrow of that type and nothing else. The configuration allows the method exactly if
no separator stands in front of its request type and this does not start like a type that is no
path. -/
theorem request_accepted_iff {config : Config} (valid : config.problems = []) {request : TypeExpr}
    (written : readType? config.conventions.requestType = some request) {items : List Item}
    {package : String} {s : Signature} {lifetime : Option String}
    (takes : s.paramTypes = [.reference lifetime false request])
    (plain : Text.firstName config.conventions.requestType ∉ pathWords)
    (free : IsFree items package (Text.firstName config.conventions.requestType)) (t : Table) :
    invocationBundle t config.conventions.requestType
        (s.method (ModuleIndex.ofItems items) package) = .ok none ↔
      config.conventions.NamesRequest := by
  obtain ⟨rooted, first, others, text, identifiers⟩ :=
    Text.exists_markedText_of_isPath (Config.isPath_requestType valid)
  have single : (s.method (ModuleIndex.ofItems items) package).paramTypes =
      [.ref false ((ModuleIndex.ofItems items).typeRef package request)] := by
    rw [Signature.paramTypes_method, takes, List.map_singleton, ModuleIndex.typeRef]
  rw [invocationBundle_eq_ok_none single, Conventions.NamesRequest]
  rw [text] at written plain free ⊢
  obtain ⟨areNames, shape⟩ := readType?_markedText identifiers written
  rw [Text.firstName_markedText areNames] at plain free ⊢
  rw [Text.markedText_prefix areNames]
  rcases shape with ⟨bare, rfl⟩ | ⟨rfl, word, pathless⟩
  · have path : ((ModuleIndex.ofItems items).typeRef package
        (.path (markedPath rooted (first :: others)))).path? =
        some (Text.pathText (first :: others)) := path?_markedPath areNames plain free
    have noWord := (bare first List.mem_cons_self).not_mem_words
    simp only [BorrowsRequest, path, Option.some.injEq, noWord, not_false_eq_true, and_true,
      Text.pathText_eq_markedText_iff, Bool.not_eq_true]
  · refine iff_of_false (fun borrows => ?_) fun names => names.2 word
    simp [BorrowsRequest, pathless.path?_typeRef] at borrows

/-! ## Requests in a file -/

/-- The names of segments that have no arguments. -/
def bareNames? : List Segment → Option (List String)
  | [] => some []
  | ⟨name, .none⟩ :: rest => (bareNames? rest).map (name :: ·)
  | _ :: _ => none

theorem eq_of_bareNames? {segments : List Segment} {names : List String}
    (h : bareNames? segments = some names) : segments = names.map bareSegment := by
  fun_induction bareNames? segments generalizing names with
  | case1 =>
    cases h
    rfl
  | case2 name rest ih =>
    obtain ⟨others, behind, rfl⟩ := Option.map_eq_some_iff.mp h
    rw [ih behind]
    rfl
  | case3 => cases h

/-- The names of a path without arguments, and whether a separator stands in front. -/
def pathNames? : TypeExpr → Option (Bool × List String)
  | .path path => (bareNames? path.segments).map fun names => (path.rooted, names)
  | _ => none

theorem eq_of_pathNames? {type : TypeExpr} {rooted : Bool} {names : List String}
    (h : pathNames? type = some (rooted, names)) : type = .path (markedPath rooted names) := by
  unfold pathNames? at h
  split at h
  · next path =>
    obtain ⟨_, bare, same⟩ := Option.map_eq_some_iff.mp h
    cases same
    rw [markedPath, ← eq_of_bareNames? bare]
    cases path
    rfl
  · cases h

/-- The signatures of a file, each with its package. -/
def placedSignatures (items : List Item) : List (String × Signature) :=
  (placedItems rootPackage items).flatMap fun item => item.2.signatures.map (item.1, ·)

/-- A file with one signature, which borrows a plain path. -/
structure RequestOutline where
  package : String
  rooted : Bool
  names : List String
  /-- What the module of the signature declares or imports. -/
  known : List String
  deriving DecidableEq

def requestOutline? (items : List Item) : Option RequestOutline :=
  match placedSignatures items with
  | [(package, s)] =>
    match s.paramTypes, moduleItems? items package with
    | [.reference none false type], some content =>
      (pathNames? type).map fun (rooted, names) =>
        { package, rooted, names
          known := declaredNames content ++ (content.flatMap Item.bindings).map Prod.fst }
    | _, _ => none
  | _ => none

theorem signature_of_outline {text requestType : String} {o : RequestOutline}
    (evaluated : (parse? text).bind requestOutline? = some o)
    (typed : (readType? requestType).bind pathNames? = some (o.rooted, o.names))
    (free : Text.firstName requestType ∉ o.known) :
    ∃ items s request, parse? text = some items ∧ placedSignatures items = [(o.package, s)] ∧
      readType? requestType = some request ∧ s.paramTypes = [.reference none false request] ∧
      IsFree items o.package (Text.firstName requestType) := by
  obtain ⟨items, read, outline⟩ := Option.bind_eq_some_iff.mp evaluated
  obtain ⟨request, isType, path⟩ := Option.bind_eq_some_iff.mp typed
  unfold requestOutline? at outline
  split at outline
  · next package s placed =>
    split at outline
    · next type content takes inside =>
      obtain ⟨⟨rooted, names⟩, path', rfl⟩ := Option.map_eq_some_iff.mp outline
      refine ⟨items, s, request, read, placed, isType, ?_, fun content' inside' => ?_⟩
      · rw [takes, eq_of_pathNames? path, eq_of_pathNames? path']
      · obtain rfl := Option.some.inj (inside.symm.trans inside')
        rw [List.mem_append, not_or] at free
        exact free
    · cases outline
  · cases outline

/-- A component in a module that neither declares nor imports the first name of its request, which
the top level does. -/
def innerRequest : String :=
  "mod http \x7b pub struct Request; \x7d mod auth \x7b pub trait Auth \x7b\x7d " ++
    "pub struct AuthMiddleware; impl AuthMiddleware \x7b " ++
    "pub fn run(&self, req: &http::Request) \x7b\x7d \x7d \x7d trait Root: auth::Auth \x7b\x7d"

theorem inner_request_accepted :
    ∃ items s request, parse? innerRequest = some items ∧
      placedSignatures items = [("self::auth", s)] ∧ ({} : Config).problems = [] ∧
      readType? "http::Request" = some request ∧ s.paramTypes = [.reference none false request] ∧
      Text.firstName "http::Request" ∉ pathWords ∧
      IsFree items "self::auth" (Text.firstName "http::Request") ∧
      invocationBundle (tableOf items) "http::Request"
        (s.method (ModuleIndex.ofItems items) "self::auth") = .ok none := by
  have valid : ({} : Config).problems = [] := by decide +kernel
  have plain : Text.firstName "http::Request" ∉ pathWords := by decide +kernel
  have names : ({} : Conventions).NamesRequest := by decide +kernel
  have outline : (parse? innerRequest).bind requestOutline? = some {
      package := "self::auth", rooted := false, names := ["http", "Request"]
      known := ["Auth", "AuthMiddleware"] } := by decide +kernel
  have typed : (readType? "http::Request").bind pathNames? =
      some (false, ["http", "Request"]) := by decide +kernel
  obtain ⟨items, s, request, read, placed, isType, takes, free⟩ :=
    signature_of_outline outline typed (by decide +kernel)
  have accepted := request_accepted_iff valid isType takes plain free (tableOf items)
  exact ⟨items, s, request, read, placed, valid, isType, takes, plain, free, accepted.mpr names⟩

/-- A method that takes its request as the configuration names it, from outside the file. -/
def rootedRequest : String :=
  "trait Root: Auth \x7b\x7d trait Auth \x7b\x7d struct AuthMiddleware; " ++
    "impl AuthMiddleware \x7b fn run(&self, req: &::http::Request) \x7b\x7d \x7d"

def rootedConventions : Conventions :=
  { requestType := "::http::Request" }

/-- A request type behind a separator is accepted as a path, and never met. -/
theorem rooted_request_refused :
    ∃ items s request, parse? rootedRequest = some items ∧
      placedSignatures items = [("self", s)] ∧
      ({ conventions := rootedConventions } : Config).problems = [] ∧
      readType? rootedConventions.requestType = some request ∧
      s.paramTypes = [.reference none false request] ∧
      Text.firstName rootedConventions.requestType ∉ pathWords ∧
      IsFree items "self" (Text.firstName rootedConventions.requestType) ∧
      (∀ t, invocationBundle t rootedConventions.requestType
        (s.method (ModuleIndex.ofItems items) "self") ≠ .ok none) ∧
      (tableOf items).compile rootedConventions "self" "Root" =
        .error (.invalidSignature ⟨"self", "AuthMiddleware"⟩ "run"
          (.request "::http::Request" (.ref false (.external "http::Request")))) := by
  have valid : ({ conventions := rootedConventions } : Config).problems = [] := by decide +kernel
  have plain : Text.firstName rootedConventions.requestType ∉ pathWords := by decide +kernel
  have outline : (parse? rootedRequest).bind requestOutline? = some {
      package := "self", rooted := true, names := ["http", "Request"]
      known := ["Root", "Auth", "AuthMiddleware"] } := by decide +kernel
  have typed : (readType? rootedConventions.requestType).bind pathNames? =
      some (true, ["http", "Request"]) := by decide +kernel
  obtain ⟨items, s, request, read, placed, isType, takes, free⟩ :=
    signature_of_outline outline typed (by decide +kernel)
  have evaluated : (parse? rootedRequest).map (fun items =>
      ((placedSignatures items).map fun s =>
          (s.2.method (ModuleIndex.ofItems items) "self").paramTypes,
        (tableOf items).compile rootedConventions "self" "Root")) =
      some ([[.ref false (.external "http::Request")]],
        .error (.invalidSignature ⟨"self", "AuthMiddleware"⟩ "run"
          (.request "::http::Request" (.ref false (.external "http::Request"))))) := by
    decide +kernel
  rw [read, Option.map_some, Option.some.injEq, Prod.mk.injEq, placed] at evaluated
  obtain ⟨params, compiled⟩ := evaluated
  have single := List.singleton_inj.mp params
  refine ⟨items, s, request, read, placed, valid, isType, takes, plain, free, fun t => ?_, compiled⟩
  rw [Ne, invocationBundle_eq_ok_none single]
  decide +kernel

end MiddlewareStack
