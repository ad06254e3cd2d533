import XmlSchema.Proofs.ContentModel.Matching

namespace XmlSchema.ContentModel

variable {δ : Type}

mutual

/-- The number of states that a particle takes up: one in front and one behind, and those of each
copy of its term. A loop takes one copy more than the particle must occur. -/
def Particle.stateCount : Particle δ → Nat
  | ⟨min, max, term⟩ => match max with
    | none => 2 + min * term.stateCount + term.stateCount
    | some 0 => 1
    | some (max + 1) => 2 + (max + 1) * term.stateCount

def Term.stateCount : Term δ → Nat
  | .element _ | .wildcard _ => 2
  | .sequence children => 1 + stateCounts children
  | .choice children => 2 + stateCounts children
  | .all _ => 0

def stateCounts : List (Particle δ) → Nat
  | [] => 0
  | p :: ps => p.stateCount + stateCounts ps

end

namespace Layout

variable {α β : Type} {body : Layout δ (Nat × Nat)} {count rest : Nat}

/-- A layout adds some number of states if there is room for them, and is refused as too large if
there is not. -/
def Costs (m : Layout δ α) (count : Nat) : Prop :=
  ∀ g : Graph δ, g.transitions.size ≤ maxStates →
    (∃ a g', m g = .ok (a, g') ∧ g'.transitions.size = g.transitions.size + count ∧
        g.transitions.size + count ≤ maxStates) ∨
      (m g = .error .tooLarge ∧ maxStates < g.transitions.size + count)

theorem costs_pure (a : α) : Costs (pure a : Layout δ α) 0 := fun g room =>
  .inl ⟨a, g, rfl, rfl, room⟩

theorem Costs.of_eq {m : Layout δ α} (h : Costs m count) (equal : count = rest) : Costs m rest :=
  equal ▸ h

theorem Costs.bind {m : Layout δ α} {f : α → Layout δ β} (first : Costs m count)
    (second : ∀ a, Costs (f a) rest) : Costs (m >>= f) (count + rest) := by
  intro g room
  rcases first g room with ⟨a, g₁, ran, size, room₁⟩ | ⟨refused, full⟩
  · have unfolded : (m >>= f) g = f a g₁ := by simp [Bind.bind, StateT.bind, Except.bind, ran]
    rw [unfolded]
    rcases second a g₁ (by omega) with ⟨b, g', ranRest, sizeRest, room'⟩ | ⟨refused, full⟩
    · exact .inl ⟨b, g', ranRest, by omega, by omega⟩
    · exact .inr ⟨refused, by omega⟩
  · refine .inr ⟨?_, by omega⟩
    simp [Bind.bind, StateT.bind, Except.bind, refused]

theorem costs_newState : Costs (newState : Layout δ Nat) 1 := by
  intro g room
  unfold newState
  split
  · exact .inr ⟨rfl, by omega⟩
  · exact .inl ⟨_, _, rfl, by simp, by omega⟩

theorem costs_epsilon (s t : Nat) : Costs (epsilon s t : Layout δ Unit) 0 := fun g room =>
  .inl ⟨(), g.addEpsilon s t, rfl, rfl, room⟩

theorem costs_labelled (label : Label δ) : Costs (labelled label) 2 := by
  refine costs_newState.bind fun s => (costs_newState.bind fun t => ?_ : Costs _ (1 + 0))
  exact fun g room => .inl ⟨(s, t), g.addLabelled label s t, rfl, by simp [Graph.addLabelled], room⟩

theorem costs_copies (costs : Costs body count) (n s : Nat) :
    Costs (copies body n s) (n * count) := by
  induction n generalizing s with
  | zero => exact (costs_pure _).of_eq (Nat.zero_mul _).symm
  | succ n ih =>
    exact (costs.bind fun _ => (costs_epsilon _ _).bind fun _ => ih _).of_eq (by
      rw [Nat.succ_mul]
      omega)

theorem costs_optionalCopies (costs : Costs body count) (final n s : Nat) :
    Costs (optionalCopies body final n s) (n * count) := by
  induction n generalizing s with
  | zero => exact (costs_pure _).of_eq (Nat.zero_mul _).symm
  | succ n ih =>
    exact ((costs_epsilon _ _).bind fun _ => costs.bind fun _ => (costs_epsilon _ _).bind fun _ =>
      ih _).of_eq (by
        rw [Nat.succ_mul]
        omega)

theorem costs_loop (costs : Costs body count) (s : Nat) : Costs (loop body s) (1 + count) :=
  costs_newState.bind fun _ => costs.bind fun _ => (costs_epsilon _ _).bind fun _ =>
    (costs_epsilon _ _).bind fun _ => (costs_epsilon _ _).bind fun _ => costs_pure _

theorem costs_bounded {t : Term δ} {min : Nat} {max : Option Nat}
    (ordered : max.all (min ≤ ·) = true) (costs : Costs (term t) t.stateCount) :
    Costs (particle ⟨min, max, t⟩) (Particle.stateCount ⟨min, max, t⟩) := by
  unfold particle
  rcases max with _ | _ | max
  · refine (costs_newState.bind fun _ => (costs_copies costs min _).bind fun _ =>
      (costs_loop costs _).bind fun _ => costs_pure _).of_eq ?_
    simp only [Particle.stateCount]
    omega
  · obtain rfl : min = 0 := by simpa using ordered
    exact costs_newState.bind fun _ => costs_pure _
  · have le : min ≤ max + 1 := by simpa using ordered
    dsimp only
    rw [if_neg (Nat.not_lt.2 le)]
    refine (costs_newState.bind fun _ => (costs_copies costs min _).bind fun _ =>
      costs_newState.bind fun _ => (costs_optionalCopies costs _ (max + 1 - min) _).bind fun _ =>
        (costs_epsilon _ _).bind fun _ => costs_pure _).of_eq ?_
    have copies : min * t.stateCount + (max + 1 - min) * t.stateCount =
        (max + 1) * t.stateCount := by
      rw [← Nat.add_mul, Nat.add_sub_cancel' le]
    simp only [Particle.stateCount]
    omega

mutual

theorem particle_costs (p : Particle δ) (noAll : p.containsAll = false)
    (ordered : p.boundsOrdered = true) : Costs (particle p) p.stateCount := by
  obtain ⟨min, max, t⟩ := p
  obtain ⟨bounds, inner⟩ := Bool.and_eq_true_iff.1 ordered
  exact costs_bounded bounds (term_costs t noAll inner)

theorem term_costs (t : Term δ) (noAll : t.containsAll = false)
    (ordered : t.boundsOrdered = true) : Costs (term t) t.stateCount := by
  cases t with
  | element e => exact costs_labelled _
  | wildcard w => exact costs_labelled _
  | sequence children =>
    exact costs_newState.bind fun _ => (inSequence_costs children noAll ordered _).bind fun _ =>
      costs_pure _
  | choice children =>
    exact (costs_newState.bind fun _ => costs_newState.bind fun _ =>
      (inParallel_costs children noAll ordered _ _).bind fun _ => costs_pure _).of_eq (by
        rw [Term.stateCount]
        omega)
  | all children => cases noAll

theorem inSequence_costs (ps : List (Particle δ)) (noAll : anyContainsAll ps = false)
    (ordered : allBoundsOrdered ps = true) (s : Nat) : Costs (inSequence ps s) (stateCounts ps) := by
  cases ps with
  | nil => exact costs_pure _
  | cons p ps =>
    obtain ⟨noAllFirst, noAllRest⟩ := Bool.or_eq_false_iff.1 noAll
    obtain ⟨orderedFirst, orderedRest⟩ := Bool.and_eq_true_iff.1 ordered
    exact ((particle_costs p noAllFirst orderedFirst).bind fun _ => (costs_epsilon _ _).bind fun _ =>
      inSequence_costs ps noAllRest orderedRest _).of_eq (by
        rw [stateCounts]
        omega)

theorem inParallel_costs (ps : List (Particle δ)) (noAll : anyContainsAll ps = false)
    (ordered : allBoundsOrdered ps = true) (s t : Nat) :
    Costs (inParallel ps s t) (stateCounts ps) := by
  cases ps with
  | nil => exact costs_pure _
  | cons p ps =>
    obtain ⟨noAllFirst, noAllRest⟩ := Bool.or_eq_false_iff.1 noAll
    obtain ⟨orderedFirst, orderedRest⟩ := Bool.and_eq_true_iff.1 ordered
    exact ((particle_costs p noAllFirst orderedFirst).bind fun _ => (costs_epsilon _ _).bind fun _ =>
      (costs_epsilon _ _).bind fun _ => inParallel_costs ps noAllRest orderedRest _ _).of_eq (by
        rw [stateCounts]
        omega)

end

end Layout

theorem build_eq_of_noAll {p : Particle δ} (noAll : p.containsAll = false) :
    build p = (Automaton.ofParticle p).map .automaton := by
  obtain ⟨min, max, t⟩ := p
  cases t with
  | all children => cases noAll
  | _ => rfl

/-- There is a content model for a particle if and only if the states that the particle takes up are
within the limit. The automaton has exactly so many states and takes the words of the particle, so
no bound is weakened to fit, and a particle that needs more states is refused as too large. -/
theorem build_by_stateCount {p : Particle δ} (noAll : p.containsAll = false)
    (ordered : p.boundsOrdered = true) :
    (build p = .error .tooLarge ↔ maxStates < p.stateCount) ∧
      ((∃ model, build p = .ok model) ↔ p.stateCount ≤ maxStates) ∧
      ∀ model, build p = .ok model → ∃ a, model = .automaton a ∧
        a.transitions.size = p.stateCount ∧ a.epsilons.size = p.stateCount ∧
        ∀ names, model.accepts names = true ↔ names ∈ p.language := by
  rcases Layout.particle_costs p noAll ordered ⟨#[], #[], #[]⟩ (Nat.zero_le _) with
    ⟨⟨start, accept⟩, g, ran, size, room⟩ | ⟨refused, full⟩
  · have size : g.transitions.size = p.stateCount := size.trans (Nat.zero_add _)
    have room : p.stateCount ≤ maxStates := (Nat.zero_add _).symm.trans_le room
    have laid : Automaton.ofParticle p = .ok { g with start, accept } := by
      simp only [Automaton.ofParticle, ran]
      rfl
    have built : build p = .ok (.automaton { g with start, accept }) := by
      rw [build_eq_of_noAll noAll, laid]
      rfl
    refine ⟨iff_of_false ?_ (Nat.not_lt.2 room), iff_of_true ⟨_, built⟩ room, ?_⟩
    · simp [built]
    · rintro model isBuilt
      obtain rfl := Except.ok.inj (built.symm.trans isBuilt)
      have sizes := (ofParticle_ok laid).wellFormed.sizes
      exact ⟨_, rfl, size, sizes.symm.trans size, accepts_ofParticle_iff laid⟩
  · have full : maxStates < p.stateCount := full.trans_eq (Nat.zero_add _)
    have refused : build p = .error .tooLarge := by
      rw [build_eq_of_noAll noAll, Automaton.ofParticle]
      simp only [refused]
      rfl
    refine ⟨iff_of_true refused full, iff_of_false ?_ (Nat.not_le.2 full), ?_⟩
    · simp [refused]
    · intro model built
      rw [refused] at built
      cases built

def groupsOfItems (max : Nat) : Particle Unit :=
  ⟨0, some max, .sequence [.once (.sequence [⟨0, some max, .element ⟨⟨"", "Item"⟩, none⟩⟩])]⟩

theorem build_groupsOfItems :
    (∀ max, (groupsOfItems max).containsAll = false ∧ (groupsOfItems max).boundsOrdered = true) ∧
      (∃ a, build (groupsOfItems 314) = .ok (.automaton a) ∧ a.transitions.size = 199078) ∧
      build (groupsOfItems 315) = .error .tooLarge ∧
      build (groupsOfItems 4294967295) = .error .tooLarge := by
  have noAll (max : Nat) : (groupsOfItems max).containsAll = false := rfl
  have ordered (max : Nat) : (groupsOfItems max).boundsOrdered = true := by
    simp [groupsOfItems, Particle.once, Particle.boundsOrdered, Term.boundsOrdered, allBoundsOrdered]
  refine ⟨fun max => ⟨noAll max, ordered max⟩, ?_, ?_, ?_⟩
  · obtain ⟨-, fits, meaning⟩ := build_by_stateCount (noAll 314) (ordered 314)
    obtain ⟨model, built⟩ := fits.2 (by decide)
    obtain ⟨a, rfl, size, -⟩ := meaning model built
    exact ⟨a, built, size.trans (by decide)⟩
  · exact (build_by_stateCount (noAll 315) (ordered 315)).1.2 (by decide)
  · exact (build_by_stateCount (noAll 4294967295) (ordered 4294967295)).1.2 (by decide)

end XmlSchema.ContentModel
