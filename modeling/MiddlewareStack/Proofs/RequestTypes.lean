import MiddlewareStack.Proofs.ContractImpls
import MiddlewareStack.Proofs.StackEmbeds

/-!
# The request of a stack

Every component borrows a request, and each is checked on its own, against a nominal path. The
components of a stack therefore agree in the path of what they borrow. They need not agree in what
that path is applied to, which the path leaves out.
-/

namespace MiddlewareStack

/-- What a nominal type is applied to. -/
inductive TypeRef.Arguments where
  | none
  /-- The arguments of a declaration of the table. -/
  | resolved (args : List TypeRef)
  /-- What follows the path of a type from outside the table. -/
  | written (text : String)

namespace TypeRef

def arguments : TypeRef → Arguments
  | .generic _ args => .resolved args
  | .external path => .written (String.ofList (path.toList.dropWhile (· != '<')))
  | _ => .none

/-- Nominal types of one path are the same if they name the same declaration, or both none, and are
applied to the same arguments. -/
theorem eq_iff_of_path? {a b : TypeRef} {path : String} (ha : a.path? = some path)
    (hb : b.path? = some path) :
    a = b ↔ a.tableName? = b.tableName? ∧ a.arguments = b.arguments := by
  constructor
  · rintro rfl
    exact ⟨rfl, rfl⟩
  · rintro ⟨sameName, sameArguments⟩
    cases a with
    | declared name => cases b <;> simp_all [tableName?, arguments]
    | generic base args => cases b <;> simp_all [tableName?, arguments]
    | external one =>
      cases b with
      | external other =>
        -- the path is what comes before the arguments, so that the two make up the text
        simp only [path?, Option.some.injEq] at ha hb
        simp only [arguments, Arguments.written.injEq] at sameArguments
        have front := String.ofList_injective (ha.trans hb.symm)
        have back := String.ofList_injective sameArguments
        have text : one.toList = other.toList := by
          rw [← List.takeWhile_append_dropWhile (p := (· != '<')) (l := one.toList), front, back,
            List.takeWhile_append_dropWhile]
        rw [String.toList_injective text]
      | declared _ | generic _ _ => simp [tableName?] at sameName
      | ref _ _ | dyn _ | impl _ | verbatim _ => cases hb
    | ref _ _ | dyn _ | impl _ | verbatim _ => cases ha

end TypeRef

variable {t : Table} {c : Conventions} {root : QualifiedName} {s : CompiledStack}

/-- `p` is the first parameter of the invocation of `comp` and borrows `request`, a type of the path
that the conventions name. -/
structure TakesRequest (c : Conventions) (comp : Component) (p : Param) (request : TypeRef) :
    Prop where
  first : comp.invocation.params.head? = some p
  borrowed : p.ty = .ref false request
  path : request.path? = some c.requestType

theorem borrowsRequest_iff {requestType : String} {ty : TypeRef} :
    BorrowsRequest requestType ty ↔
      ∃ request, ty = .ref false request ∧ request.path? = some requestType := by
  unfold BorrowsRequest
  split
  · simp
  · next other =>
    simp only [false_iff, not_exists, not_and]
    exact fun request same => absurd same (other request)

theorem borrows_of_invocationBundle {requestType : String} {m : Method}
    {bundle : Option QualifiedName} (h : invocationBundle t requestType m = .ok bundle) :
    ∃ p, m.params.head? = some p ∧ BorrowsRequest requestType p.ty := by
  unfold invocationBundle at h
  split at h
  · next request single =>
    split at h
    · next borrows => exact ⟨request, by rw [single, List.head?_cons], borrows⟩
    · cases h
  · next request deps pair =>
    split at h
    · next borrows => exact ⟨request, by rw [pair, List.head?_cons], borrows⟩
    · cases h
  · cases h

theorem CompiledFrom.takesRequest (h : CompiledFrom t c root s) {comp : Component}
    (member : comp ∈ s.graph.components) : ∃ p request, TakesRequest c comp p request := by
  obtain ⟨id, present⟩ := DependencyGraph.mem_components.mp member
  obtain ⟨_, _, _, _, _, _, bundled, _⟩ :=
    Table.resolve_eq_ok.mp (h.settled.settled id comp present).resolved
  obtain ⟨p, first, borrows⟩ := borrows_of_invocationBundle bundled
  obtain ⟨request, borrowed, path⟩ := borrowsRequest_iff.mp borrows
  exact ⟨p, request, first, borrowed, path⟩

/-- The run takes the request that the first component takes. -/
theorem CompiledFrom.request_emitted (h : CompiledFrom t c root s) {config : Config} {a : Aggregate}
    (rendered : Aggregate.ofStack s t config = .ok a) {comp : Component}
    (head : s.orderedComponents.head? = some comp) :
    ∃ p request, TakesRequest c comp p request ∧ a.requestParam = Aggregate.typeText p := by
  have member : comp ∈ s.graph.components := h.orderedComponents_eq ▸ List.mem_of_mem_head? head
  obtain ⟨p, request, takes⟩ := h.takesRequest member
  have param : a.requestParam = Aggregate.requestParamText config s.orderedComponents := by
    simp only [Aggregate.ofStack, Aggregate.bind_eq_ok] at rendered
    obtain ⟨_, _, _, _, rendered⟩ := rendered
    cases rendered
    rfl
  refine ⟨p, request, takes, ?_⟩
  rw [param, Aggregate.requestParamText, head, Option.bind_some, takes.first]

/-- The components of a compiled stack borrow requests of one path, that of the conventions, and the
request of the generated run is the one of the first component. The requests of two components are
the same type exactly if they name the same declaration, or both none of the table, and have the
same arguments. -/
theorem request_path_shared {scope name : String} (compiled : t.compile c scope name = .ok s) :
    (∀ comp ∈ s.graph.components, ∃ p request, TakesRequest c comp p request) ∧
    (∀ comp ∈ s.graph.components, ∀ comp' ∈ s.graph.components, ∀ p request p' request',
      TakesRequest c comp p request → TakesRequest c comp' p' request' →
        (p.ty = p'.ty ↔ request.tableName? = request'.tableName? ∧
          request.arguments = request'.arguments)) ∧
    ∀ config a, Aggregate.ofStack s t config = .ok a → s.graph.components ≠ [] →
      ∃ comp p request, s.orderedComponents.head? = some comp ∧ TakesRequest c comp p request ∧
        a.requestParam = Aggregate.typeText p := by
  obtain ⟨package, _, result⟩ := Table.compile_ok compiled
  refine ⟨fun comp member => result.takesRequest member, ?_, fun config a rendered some => ?_⟩
  · intro comp _ comp' _ p request p' request' takes takes'
    rw [takes.borrowed, takes'.borrowed, TypeRef.ref.injEq]
    simpa using TypeRef.eq_iff_of_path? takes.path takes'.path
  · obtain ⟨comp, rest, components⟩ := List.exists_cons_of_ne_nil some
    have head : s.orderedComponents.head? = .some comp := by
      rw [result.orderedComponents_eq, components, List.head?_cons]
    obtain ⟨p, request, takes, param⟩ := result.request_emitted rendered head
    exact ⟨comp, p, request, head, takes, param⟩

theorem diamond_request_shared :
    diamond.compile {} "self" "Root" = .ok (.ofRange diamondGraph) ∧
      (∀ comp ∈ diamondGraph.components, ∃ p request, TakesRequest {} comp p request) ∧
      ∃ a comp p request, Aggregate.ofStack (.ofRange diamondGraph) diamond {} = .ok a ∧
        TakesRequest {} comp p request ∧ a.requestParam = Aggregate.typeText p := by
  have compiled : diamond.compile {} "self" "Root" = .ok (.ofRange diamondGraph) := by
    decide +kernel
  have evaluated : (Aggregate.ofStack (.ofRange diamondGraph) diamond {}).toOption.map
      Aggregate.requestParam = some "&http::Request" := by decide +kernel
  obtain ⟨a, rendered, _⟩ := Aggregate.exists_ok_of_read evaluated
  obtain ⟨takes, _, shown⟩ := request_path_shared compiled
  obtain ⟨comp, p, request, _, takesFirst, param⟩ := shown {} a rendered (by decide +kernel)
  exact ⟨compiled, takes, a, comp, p, request, rendered, takesFirst, param⟩

/-- Add a capability and its implementation, which borrows the request type that is named. -/
def Table.addTaker (t : Table) (name request : String) : Table :=
  (t.insert { package := "self", name } (.interface {})).insert
    { package := "self", name := name ++ "Middleware" }
    (.concrete { methods :=
      [{ name := "run", params := [{ name := "req", ty := .ref false (.external request) }] }] })

/-- Two components whose requests differ in an argument. -/
def mixedRequests : Table :=
  ((Table.empty.addStack "Root" ["A", "B"]).addTaker "A" "http::Request<u8>").addTaker "B"
    "http::Request<String>"

/-- They compile into one stack, whose run takes the request of the first. -/
theorem request_arguments_differ :
    ∃ s, mixedRequests.compile {} "self" "Root" = .ok s ∧
      (s.graph.components.map fun comp => comp.invocation.params.map Param.ty) =
        [[.ref false (.external "http::Request<u8>")],
          [.ref false (.external "http::Request<String>")]] ∧
      (Aggregate.ofStack s mixedRequests {}).toOption.map Aggregate.requestParam =
        some "&http::Request<u8>" := by
  have evaluated : (mixedRequests.compile {} "self" "Root").toOption.map (fun s =>
      (s.graph.components.map fun comp => comp.invocation.params.map Param.ty,
        (Aggregate.ofStack s mixedRequests {}).toOption.map Aggregate.requestParam)) =
      some ([[.ref false (.external "http::Request<u8>")],
          [.ref false (.external "http::Request<String>")]], some "&http::Request<u8>") := by
    decide +kernel
  obtain ⟨s, compiled, read⟩ := Aggregate.exists_ok_of_read evaluated
  exact ⟨s, compiled, Prod.mk.inj read⟩

end MiddlewareStack
