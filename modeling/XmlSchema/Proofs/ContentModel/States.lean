import XmlSchema.Proofs.ContentModel.Choice

namespace XmlSchema.ContentModel

open Component (QName)

variable {δ : Type}

/-- States are a set that matching keeps for an automaton: there are some, in increasing order, each
of them has a place in both tables, and nothing else is reached from them without reading. -/
structure Automaton.Keeps (a : Automaton δ) (active : List Nat) : Prop where
  nonempty : active ≠ []
  increasing : active.Pairwise (· < ·)
  inside : ∀ s ∈ active, s < a.transitions.size ∧ s < a.epsilons.size
  closed : ∀ s ∈ active, ∀ t ∈ a.epsilonsOf s, t ∈ active

theorem Graph.lt_of_mem_closure {g : Graph δ} (h : g.WellFormed) {states : List Nat}
    (lt : ∀ s ∈ states, s < g.size) {t : Nat} (member : t ∈ g.closure states) : t < g.size := by
  obtain ⟨s, start, path⟩ := (Graph.mem_closure h lt t).1 member
  exact path.stays (lt s start) fun _ _ _ _ edge => h.target_lt edge

theorem Automaton.keeps_closure {a : Automaton δ} (h : a.toGraph.WellFormed) {states : List Nat}
    (nonempty : states ≠ []) (lt : ∀ s ∈ states, s < a.toGraph.size) :
    a.Keeps (a.closure states) where
  nonempty := by
    obtain ⟨s, member⟩ := List.exists_mem_of_ne_nil states nonempty
    exact List.ne_nil_of_mem ((Graph.mem_closure h lt s).2 ⟨s, member, .refl s⟩)
  increasing := a.pairwise_closure states
  inside s member := by
    have inside := Graph.lt_of_mem_closure h lt member
    exact ⟨h.sizes ▸ inside, inside⟩
  closed s member t edge := Graph.closure_closed h lt s t member edge

theorem Automaton.keeps_of_step {a : Automaton δ} (h : a.toGraph.WellFormed) {active next : List Nat}
    {name : QName} {label : Nat} (stepped : a.step active name = some (label, next)) :
    a.Keeps next := by
  obtain ⟨⟨t, among, rfl⟩, accepted, -, rfl⟩ := Graph.readAlong_eq_some stepped
  refine Automaton.keeps_closure h ?_ fun target member => ?_
  · exact List.ne_nil_of_mem (List.mem_map_of_mem (List.mem_filter.2 ⟨among, accepted⟩))
  · obtain ⟨⟨_, _⟩, taken, rfl⟩ := List.mem_map.1 member
    obtain ⟨_, _, transition⟩ := Graph.mem_outgoing.1 (List.mem_filter.1 taken).1
    exact (h.transition_lt _ _ _ transition).2

theorem Reachable.keeps {a : Automaton δ} {state : State}
    (built : (ContentModel.automaton a).IsBuilt)
    (reachable : (ContentModel.automaton a).Reachable state) :
    ∃ active, state = .automaton active ∧ a.Keeps active := by
  obtain ⟨wellFormed, start_lt⟩ := built.wellFormed
  induction reachable with
  | start =>
    refine ⟨_, rfl, Automaton.keeps_closure wellFormed (List.cons_ne_nil _ _) ?_⟩
    exact List.forall_mem_singleton.2 start_lt
  | child _ name ih =>
    obtain ⟨active, rfl, keeps⟩ := ih
    unfold after
    split
    · next stepped =>
      obtain ⟨_, reached, read, -, rfl⟩ := step_automaton_eq_some_iff.1 stepped
      exact ⟨reached, rfl, Automaton.keeps_of_step wellFormed read⟩
    · exact ⟨active, rfl, keeps⟩

/-- A content model and a state are neither an automaton and some of its states nor an `all` group
and marks for members. -/
def IsOther (model : ContentModel δ) (state : State) : Prop :=
  match model, state with
  | .automaton _, .automaton _ | .all _ _, .all _ => False
  | _, _ => True

/-- In every state that is met, the state is of the kind of the content model, and there is a mark for
each member of an `all` group. The states of an automaton are some of its states in increasing order,
to which all belong that are reached without reading. So bisection decides whether the accepting state
is among them, and the answer that does not look at the state is given by the content model without
children only. -/
theorem states_are_kept {model : ContentModel δ} {state : State} (built : model.IsBuilt)
    (reachable : model.Reachable state) :
    Fits model state ∧
    (∀ a active, model = .automaton a → state = .automaton active → a.Keeps active ∧
      (Bisection.contains active.toArray a.accept = true ↔ a.accept ∈ active) ∧
      (model.isAccepting state = true ↔ a.accept ∈ active)) ∧
    (IsOther model state ↔ model = .empty) := by
  have fits := reachable.fits
  refine ⟨fits, ?_, ?_⟩
  · rintro a active rfl rfl
    obtain ⟨_, equal, keeps⟩ := reachable.keeps built
    obtain rfl := State.automaton.inj equal
    have found := isAccepting_automaton_iff (a := a) keeps.increasing
    exact ⟨keeps, found, found⟩
  · cases fits with
    | empty => exact iff_of_true trivial rfl
    | automaton => exact iff_of_false id (by simp)
    | all => exact iff_of_false id (by simp)

theorem pairsThenRest_states_are_kept : ∃ model, build pairsThenRest = .ok model ∧ model.IsBuilt ∧
    ∃ a active, model = .automaton a ∧
      model.after (model.after (model.after model.start ⟨"", "a"⟩) ⟨"", "a"⟩) ⟨"", "z"⟩ =
        .automaton active ∧
      model.Reachable (.automaton active) ∧ a.Keeps active ∧ a.accept ∈ active := by
  have runs : ((build pairsThenRest).toOption.any fun model => model.isAccepting
      (model.after (model.after (model.after model.start ⟨"", "a"⟩) ⟨"", "a"⟩) ⟨"", "z"⟩)) = true := by
    decide +kernel
  cases built : build pairsThenRest with
  | error fault => simp [built, Except.toOption] at runs
  | ok model =>
    simp only [built, Except.toOption, Option.any_some] at runs
    obtain ⟨a, -, rfl⟩ := build_ok rfl built
    have reachable : (ContentModel.automaton a).Reachable _ :=
      .child (.child (.child .start ⟨"", "a"⟩) ⟨"", "a"⟩) ⟨"", "z"⟩
    obtain ⟨active, equal, -⟩ := reachable.keeps (.ofParticle built)
    rw [equal] at runs reachable
    obtain ⟨keeps, -, accepting⟩ :=
      (states_are_kept (.ofParticle built) reachable).2.1 a active rfl rfl
    exact ⟨_, rfl, .ofParticle built, a, active, rfl, equal, reachable, keeps, accepting.1 runs⟩

end XmlSchema.ContentModel
