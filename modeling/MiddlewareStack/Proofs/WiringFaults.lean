import MiddlewareStack.Proofs.ShortCircuits

/-!
# What wiring refuses

An executor is created exactly from one instance for each capability of the pipeline. Anything else
is refused for the first instance that does not fit, or, where all of them do, for the first step
that has none. Afterwards whatever ends a run was answered by an instance.
-/

namespace MiddlewareStack

variable {Instance : Type} {p : Pipeline} {supplied before after : List (String × Instance)}

namespace Executor

/-- Instances that each fit a step, none under the same capability as another. -/
structure Fitting (p : Pipeline) (supplied : List (String × Instance)) : Prop where
  known : ∀ pair ∈ supplied, pair.1 ∈ p.invocationOrder
  once : (supplied.map Prod.fst).Nodup

/-- Why instances are refused. -/
inductive WiringFault (p : Pipeline) (supplied : List (String × Instance)) : WiringError → Prop
  | unknown {before after : List (String × Instance)} {capability : String} {component : Instance}
      (split : supplied = before ++ (capability, component) :: after) (fitting : Fitting p before)
      (foreign : capability ∉ p.invocationOrder) :
      WiringFault p supplied (.unknownComponent capability)
  | duplicate {before after : List (String × Instance)} {capability : String}
      {component : Instance} (split : supplied = before ++ (capability, component) :: after)
      (fitting : Fitting p before) (again : capability ∈ before.map Prod.fst) :
      WiringFault p supplied (.duplicateComponent capability)
  | missing {before after : List Step} {step : Step} (fitting : Fitting p supplied)
      (split : p.steps = before ++ step :: after)
      (present : ∀ earlier ∈ before, earlier.capability ∈ supplied.map Prod.fst)
      (absent : step.capability ∉ supplied.map Prod.fst) :
      WiringFault p supplied (.missingComponent step.capability)

/-- One more instance that fits. -/
theorem Fitting.concat {capability : String} {component : Instance} (h : Fitting p before)
    (known : capability ∈ p.invocationOrder) (new : capability ∉ before.map Prod.fst) :
    Fitting p (before ++ [(capability, component)]) := by
  constructor
  · simpa [or_imp, forall_and, known] using h.known
  · rw [List.map_append]
    exact h.once.append (List.nodup_singleton _) (by simpa using new)

/-- What fits is wired, under the capabilities under which it was supplied. -/
theorem Fitting.wire (h : Fitting p supplied) :
    ∃ all, wire p supplied .empty = .ok all ∧
      ∀ capability, all.contains capability ↔ capability ∈ supplied.map Prod.fst := by
  obtain ⟨all, wired⟩ : ∃ all, Executor.wire p supplied .empty = .ok all :=
    wire_ok h.once h.known (by simp)
  refine ⟨all, wired, fun capability => ?_⟩
  have found := (wire_spec wired).2 capability
  simp only [KeyedMap.find?_empty, reduceCtorEq, or_false] at found
  simp [KeyedMap.contains, Option.isSome_iff_exists, found]

/-- Wiring goes on with what it has. -/
theorem wire_append {wired all : KeyedMap Instance} (h : wire p before wired = .ok all) :
    wire p (before ++ after) wired = wire p after all := by
  induction before generalizing wired with
  | nil =>
    cases h
    rfl
  | cons pair rest ih =>
    obtain ⟨capability, component⟩ := pair
    rw [wire] at h
    rw [List.cons_append, wire]
    split at h
    · cases h
    · next known =>
      split at h
      · cases h
      · next new =>
        rw [if_neg known, if_neg new]
        exact ih h

/-- The instances fit, or there is a first one that does not. -/
theorem fitting_or_first_misfit (p : Pipeline) (supplied : List (String × Instance)) :
    Fitting p supplied ∨ ∃ before pair after, supplied = before ++ pair :: after ∧
      Fitting p before ∧ (pair.1 ∉ p.invocationOrder ∨ pair.1 ∈ before.map Prod.fst) := by
  induction supplied using List.reverseRecOn with
  | nil => exact .inl ⟨by simp, .nil⟩
  | append_singleton others last ih =>
    rcases ih with fitting | ⟨before, pair, after, split, fitting, misfit⟩
    · by_cases fits : last.1 ∈ p.invocationOrder ∧ last.1 ∉ others.map Prod.fst
      · exact .inl (fitting.concat fits.1 fits.2)
      · rw [not_and_or, not_not] at fits
        exact .inr ⟨others, last, [], rfl, fitting, fits⟩
    · exact .inr ⟨before, pair, after ++ [last], by simp [split], fitting, misfit⟩

/-- Where every step has an instance, those that fit are taken. -/
theorem Fitting.create_ok (h : Fitting p supplied)
    (complete : ∀ step ∈ p.steps, step.capability ∈ supplied.map Prod.fst) :
    ∃ e, create p supplied = .ok e := by
  obtain ⟨all, wired, contained⟩ := h.wire
  have none : p.steps.find? (fun step => !all.contains step.capability) = none := by
    refine List.find?_eq_none.mpr fun step member => ?_
    simpa using (contained _).mpr (complete step member)
  exact ⟨_, by simp only [create, wired, none]; rfl⟩

theorem WiringFault.create_error {fault : WiringError} (h : WiringFault p supplied fault) :
    create p supplied = .error fault := by
  cases h with
  | @unknown _ _ capability _ split fitting foreign =>
    obtain ⟨all, wired, _⟩ := fitting.wire
    have unknown : p.step? capability = none := by
      rw [← Option.not_isSome_iff_eq_none, Pipeline.step?_isSome]
      exact foreign
    rw [create, split, wire_append wired, wire]
    simp [unknown]
  | @duplicate _ _ capability _ split fitting again =>
    obtain ⟨all, wired, contained⟩ := fitting.wire
    have known : (p.step? capability).isSome := by
      obtain ⟨pair, member, rfl⟩ := List.mem_map.mp again
      exact Pipeline.step?_isSome.mpr (fitting.known pair member)
    rw [create, split, wire_append wired, wire]
    simp [Option.isSome_iff_ne_none.mp known, (contained _).mpr again]
  | @missing before after step fitting split present absent =>
    obtain ⟨all, wired, contained⟩ := fitting.wire
    have first : p.steps.find? (fun step => !all.contains step.capability) = some step := by
      rw [List.find?_eq_some_iff_append]
      refine ⟨by simpa using (contained _).not.mpr absent, before, after, split, ?_⟩
      intro earlier member
      simpa using (contained _).mpr (present earlier member)
    simp only [create, wired, first]

/-- Instances that fit leave no step without one, or there is a first such step. -/
theorem Fitting.complete_or_missing (h : Fitting p supplied) :
    (∀ step ∈ p.steps, step.capability ∈ supplied.map Prod.fst) ∨
      ∃ fault, WiringFault p supplied fault := by
  cases found : p.steps.find? fun step => step.capability ∉ supplied.map Prod.fst with
  | none => exact .inl fun step member => by simpa using List.find?_eq_none.mp found step member
  | some step =>
    obtain ⟨absent, before, after, split, present⟩ := List.find?_eq_some_iff_append.mp found
    refine .inr ⟨_, .missing h split (fun earlier member => ?_) (by simpa using absent)⟩
    simpa using present earlier member

theorem complete_or_fault (p : Pipeline) (supplied : List (String × Instance)) :
    (Fitting p supplied ∧ ∀ step ∈ p.steps, step.capability ∈ supplied.map Prod.fst) ∨
      ∃ fault, WiringFault p supplied fault := by
  rcases fitting_or_first_misfit p supplied with
    fitting | ⟨before, ⟨capability, component⟩, after, split, fitting, foreign | again⟩
  · exact fitting.complete_or_missing.imp_left fun complete => ⟨fitting, complete⟩
  · exact .inr ⟨_, .unknown split fitting foreign⟩
  · exact .inr ⟨_, .duplicate split fitting again⟩

theorem create_ok_iff : (∃ e, create p supplied = .ok e) ↔
    Fitting p supplied ∧ ∀ step ∈ p.steps, step.capability ∈ supplied.map Prod.fst := by
  constructor
  · rintro ⟨e, created⟩
    rcases complete_or_fault p supplied with complete | ⟨fault, refused⟩
    · exact complete
    · exact absurd (created.symm.trans refused.create_error) (by simp)
  · rintro ⟨fitting, complete⟩
    exact fitting.create_ok complete

theorem create_error_iff {fault : WiringError} :
    create p supplied = .error fault ↔ WiringFault p supplied fault := by
  refine ⟨fun refused => ?_, WiringFault.create_error⟩
  rcases complete_or_fault p supplied with ⟨fitting, complete⟩ | ⟨other, reason⟩
  · obtain ⟨e, created⟩ := fitting.create_ok complete
    exact absurd (refused.symm.trans created) (by simp)
  · have same : fault = other := by
      simpa using refused.symm.trans reason.create_error
    exact same ▸ reason

variable {Request : Type} {e : Executor Instance} {request : Request} {steps : List Step}
  {calls : List (RecordedCall Instance Request)} {response : Response}

/-- What a run that obeys its rules ends with was answered by the last instance it called. -/
theorem ShortCircuits.answered (h : ShortCircuits e request steps calls (.error response)) :
    ∃ last, calls.getLast? = some last ∧ (last.outcome.earlyResponse = some response ∨
      ∃ text, last.outcome.error = some text ∧ response = .error text) := by
  cases h with
  | @stopped _ _ _ _ last _ _ _ _ _ owed => exact ⟨last, by simp, owed.answered⟩

end Executor

/-- Wiring takes what it should, refuses anything else for the right reason, and what it took serves
every run. -/
structure ExactWiring (p : Pipeline) (supplied : List (String × Instance)) : Prop where
  accepted : (∃ e, Executor.create p supplied = .ok e) ↔
    (∀ pair ∈ supplied, pair.1 ∈ p.invocationOrder) ∧ (supplied.map Prod.fst).Nodup ∧
      ∀ step ∈ p.steps, step.capability ∈ supplied.map Prod.fst
  refused : ∀ fault,
    Executor.create p supplied = .error fault ↔ Executor.WiringFault p supplied fault
  served : ∀ e, Executor.create p supplied = .ok e → ∀ step ∈ e.pipeline.steps,
    ∃ component, e.components.find? step.capability = some component ∧
      (step.capability, component) ∈ supplied
  /-- A run that ends in an error was given it by the last instance it called, as its response or
  as its error. No run reports a step without an instance. -/
  answered : ∀ e, Executor.create p supplied = .ok e →
    ∀ (Request σ : Type)
      (invoke : Instance → Request → Option (Bundle Instance) → StateM σ Outcome)
      (request : Request) (world : σ), ∃ calls,
      e.run (Executor.recorded invoke) request (world, []) =
        ((e.run invoke request world).1, ((e.run invoke request world).2, calls)) ∧
      ∀ response, (e.run invoke request world).1 = .error response →
        ∃ last, calls.getLast? = some last ∧ (last.outcome.earlyResponse = some response ∨
          ∃ text, last.outcome.error = some text ∧ response = .error text)

theorem wiring_is_exact (p : Pipeline) (supplied : List (String × Instance)) :
    ExactWiring p supplied where
  accepted := by
    rw [Executor.create_ok_iff, ← and_assoc]
    exact and_congr_left' ⟨fun fitting => ⟨fitting.known, fitting.once⟩, fun h => ⟨h.1, h.2⟩⟩
  refused _ := Executor.create_error_iff
  served e created step member := by
    have wired := Executor.create_wired created
    rw [wired.pipeline] at member
    obtain ⟨component, found⟩ := Option.isSome_iff_exists.mp (wired.serves step member)
    exact ⟨component, found, (wired.supplied _ _).mp found⟩
  answered e created Request σ invoke request world := by
    have wired := Executor.create_wired created
    obtain ⟨calls, record, runs⟩ := wired.run_recorded invoke request world
    refine ⟨calls, record, fun response ends => ?_⟩
    have obeys := runs.shortCircuits wired.serves
    rw [ends] at obeys
    exact obeys.answered

end MiddlewareStack
