import XmlSchema.Proofs.ContentModel.Matching

namespace XmlSchema.ContentModel

open Component (QName)
open scoped Computability

variable {δ : Type}

namespace Layout

variable {α β : Type} {body : Layout δ (Nat × Nat)}

def Similar (m m' : Layout δ α) : Prop :=
  ∀ (g h g' : Graph δ) (a : α), h.transitions.size ≤ g.transitions.size → m g = .ok (a, g') →
    ∃ b h', m' h = .ok (b, h') ∧
      h'.transitions.size + g.transitions.size = g'.transitions.size + h.transitions.size

theorem similar_pure (a b : α) : Similar (pure a : Layout δ α) (pure b) := by
  intro g h g' c _ run
  obtain ⟨-, rfl⟩ := pure_ok.1 run
  exact ⟨b, h, rfl, Nat.add_comm _ _⟩

theorem similar_throw (fault : ModelFault) (m : Layout δ α) : Similar (throw fault) m :=
  fun _ _ _ _ _ run => nomatch run

theorem Similar.bind {m m' : Layout δ α} {f f' : α → Layout δ β} (first : Similar m m')
    (rest : ∀ a b, Similar (f a) (f' b)) : Similar (m >>= f) (m' >>= f') := by
  intro g h g' c le run
  obtain ⟨a, g₁, ran, run⟩ := bind_ok.1 run
  obtain ⟨b, h₁, ran', size⟩ := first g h g₁ a le ran
  obtain ⟨c', h', ranRest, sizeRest⟩ := rest a b g₁ h₁ g' c (by omega) run
  exact ⟨c', h', bind_ok.2 ⟨b, h₁, ran', ranRest⟩, by omega⟩

theorem similar_newState : Similar (newState : Layout δ Nat) newState := by
  intro g h g' a le run
  unfold newState at run ⊢
  split at run
  · cases run
  · next room =>
    cases run
    refine ⟨_, _, if_neg (by omega), ?_⟩
    simp only [Array.size_push]
    omega

theorem similar_epsilon (s t s' t' : Nat) :
    Similar (epsilon s t : Layout δ Unit) (epsilon s' t') := by
  intro g h g' a _ run
  obtain rfl := epsilon_ok.1 run
  exact ⟨(), _, rfl, Nat.add_comm _ _⟩

theorem similar_labelled (label : Label δ) : Similar (labelled label) (labelled label) := by
  refine similar_newState.bind fun s s' => similar_newState.bind fun t t' => ?_
  intro g h g' a _ run
  cases run
  refine ⟨_, _, rfl, ?_⟩
  simp only [Array.size_modify]
  omega

theorem similar_copies (similar : Similar body body) (n s s' : Nat) :
    Similar (copies body n s) (copies body n s') := by
  induction n generalizing s s' with
  | zero => exact similar_pure _ _
  | succ n ih => exact similar.bind fun _ _ => (similar_epsilon _ _ _ _).bind fun _ _ => ih _ _

theorem similar_optionalCopies (similar : Similar body body) (n z z' s s' : Nat) :
    Similar (optionalCopies body z n s) (optionalCopies body z' n s') := by
  induction n generalizing s s' with
  | zero => exact similar_pure _ _
  | succ n ih =>
    exact (similar_epsilon _ _ _ _).bind fun _ _ => similar.bind fun _ _ =>
      (similar_epsilon _ _ _ _).bind fun _ _ => ih _ _

theorem similar_loop (similar : Similar body body) (s s' : Nat) :
    Similar (loop body s) (loop body s') :=
  similar_newState.bind fun _ _ => similar.bind fun _ _ => (similar_epsilon _ _ _ _).bind fun _ _ =>
    (similar_epsilon _ _ _ _).bind fun _ _ => (similar_epsilon _ _ _ _).bind fun _ _ => similar_pure _ _

theorem similar_particle {t : Term δ} (min : Nat) (max : Option Nat)
    (similar : Similar (term t) (term t)) :
    Similar (particle ⟨min, max, t⟩) (particle ⟨min, max, t⟩) := by
  unfold particle
  rcases max with _ | _ | max
  · exact similar_newState.bind fun _ _ => (similar_copies similar min _ _).bind fun _ _ =>
      (similar_loop similar _ _).bind fun _ _ => similar_pure _ _
  · dsimp only
    split
    · exact similar_throw _ _
    · exact similar_newState.bind fun _ _ => similar_pure _ _
  · dsimp only
    split
    · exact similar_throw _ _
    · exact similar_newState.bind fun _ _ => (similar_copies similar min _ _).bind fun _ _ =>
        similar_newState.bind fun _ _ => (similar_optionalCopies similar _ _ _ _ _).bind fun _ _ =>
          (similar_epsilon _ _ _ _).bind fun _ _ => similar_pure _ _

mutual

theorem particle_similar (p : Particle δ) : Similar (particle p) (particle p) := by
  obtain ⟨min, max, t⟩ := p
  exact similar_particle min max (term_similar t)

theorem term_similar (t : Term δ) : Similar (term t) (term t) := by
  cases t with
  | element e => exact similar_labelled _
  | wildcard w => exact similar_labelled _
  | sequence children =>
    exact similar_newState.bind fun _ _ => (inSequence_similar children _ _).bind fun _ _ =>
      similar_pure _ _
  | choice children =>
    exact similar_newState.bind fun _ _ => similar_newState.bind fun _ _ =>
      (inParallel_similar children _ _ _ _).bind fun _ _ => similar_pure _ _
  | all children => exact similar_throw _ _

theorem inSequence_similar (ps : List (Particle δ)) (s s' : Nat) :
    Similar (inSequence ps s) (inSequence ps s') := by
  cases ps with
  | nil => exact similar_pure _ _
  | cons p ps =>
    exact (particle_similar p).bind fun _ _ => (similar_epsilon _ _ _ _).bind fun _ _ =>
      inSequence_similar ps _ _

theorem inParallel_similar (ps : List (Particle δ)) (s z s' z' : Nat) :
    Similar (inParallel ps s z) (inParallel ps s' z') := by
  cases ps with
  | nil => exact similar_pure _ _
  | cons p ps =>
    exact (particle_similar p).bind fun _ _ => (similar_epsilon _ _ _ _).bind fun _ _ =>
      (similar_epsilon _ _ _ _).bind fun _ _ => inParallel_similar ps _ _ _ _

end

theorem exists_term_of_particle {min : Nat} {max : Option Nat} {t : Term δ} {ends : Nat × Nat}
    {g g' : Graph δ} (laid : particle ⟨min, max, t⟩ g = .ok (ends, g')) (occurs : max ≠ some 0) :
    ∃ ends g g', term t g = .ok (ends, g') := by
  cases max with
  | none =>
    simp only [particle, loop, bind_ok] at laid
    obtain ⟨_, _, _, _, _, _, _, _, ⟨_, _, _, ends, _, body, _⟩, _⟩ := laid
    exact ⟨ends, _, _, body⟩
  | some max =>
    simp only [particle] at laid
    split at laid
    · cases laid
    next le =>
    obtain ⟨max, rfl⟩ : ∃ n, max = n + 1 := Nat.exists_eq_succ_of_ne_zero fun zero => occurs (by rw [zero])
    simp only [bind_ok] at laid
    obtain ⟨_, _, _, _, _, copied, _, _, _, _, _, optional, _⟩ := laid
    cases min with
    | zero =>
      simp only [Nat.sub_zero, optionalCopies, bind_ok] at optional
      obtain ⟨_, _, _, ends, _, body, _⟩ := optional
      exact ⟨ends, _, _, body⟩
    | succ min =>
      simp only [copies, bind_ok] at copied
      obtain ⟨ends, _, body, _⟩ := copied
      exact ⟨ends, _, _, body⟩

end Layout

variable {p q : Particle δ} {model whole : ContentModel δ}

def Particle.IsDroppedAll (p : Particle δ) : Prop :=
  p.max = some 0 ∧ ∃ children, p.term = .all children

def Particle.TakesWithin (p : Particle δ) (names : List QName) : Prop :=
  (p.IsDroppedAll → names = []) ∧
    (¬p.IsDroppedAll → ∃ model, build p = .ok model ∧ model.accepts names = true)

theorem language_once (t : Term δ) : (Particle.once t).language = t.language := by
  rw [Particle.once, Particle.language, bounded_some le_rfl]
  simp

theorem exists_build_of_layout {ends : Nat × Nat} {g g' : Graph δ}
    (laid : Layout.particle p g = .ok (ends, g')) (keeps : ¬p.IsDroppedAll) :
    ∃ model, build p = .ok model ∧ ∀ names, model.accepts names = true ↔ names ∈ p.language := by
  obtain ⟨⟨start, accept⟩, alone, ran, _⟩ :=
    Layout.particle_similar p g ⟨#[], #[], #[]⟩ g' ends (Nat.zero_le _) laid
  have made : Automaton.ofParticle p = .ok { alone with start, accept } := by
    simp only [Automaton.ofParticle, ran]
    rfl
  have isAutomaton : build p = .ok (.automaton { alone with start, accept }) := by
    obtain ⟨min, max, t⟩ := p
    cases t with
    | all children =>
      by_cases dropped : max = some 0
      · exact absurd ⟨dropped, children, rfl⟩ keeps
      · obtain ⟨_, _, _, body⟩ := Layout.exists_term_of_particle laid dropped
        cases body
    | _ => simp only [build, made, Except.map]
  exact ⟨_, isAutomaton, accepts_ofParticle_iff made⟩

theorem takesWithin_iff_mem_language {ends : Nat × Nat} {g g' : Graph δ}
    (laid : Layout.particle p g = .ok (ends, g')) (names : List QName) :
    p.TakesWithin names ↔ names ∈ p.language := by
  by_cases dropped : p.IsDroppedAll
  · obtain ⟨min, max, t⟩ := p
    obtain rfl : max = some 0 := dropped.1
    simp only [Layout.particle] at laid
    split at laid
    · cases laid
    next le =>
    rw [Particle.language, bounded_some (Nat.le_of_not_lt le)]
    obtain rfl : min = 0 := by omega
    simp [Particle.TakesWithin, dropped, Language.mem_one]
  · obtain ⟨model, built, accepts⟩ := exists_build_of_layout laid dropped
    simp [Particle.TakesWithin, dropped, built, accepts]

theorem exists_layout_of_build {ps : List (Particle δ)}
    (built : build (.once (.sequence ps)) = .ok whole) :
    ∃ g ends g', Layout.particle (.once (.sequence ps)) g = .ok (ends, g') := by
  change (Automaton.ofParticle (.once (.sequence ps))).map ContentModel.automaton = _ at built
  cases made : Automaton.ofParticle (.once (.sequence ps)) with
  | error fault =>
    rw [made] at built
    cases built
  | ok a => exact ⟨_, _, _, ofParticle_eq_ok made⟩

theorem exists_layout_of_sequence {ends : Nat × Nat} {g g' : Graph δ}
    (laid : Layout.particle (.once (.sequence [p, q])) g = .ok (ends, g')) :
    (∃ g ends g', Layout.particle p g = .ok (ends, g')) ∧
      ∃ g ends g', Layout.particle q g = .ok (ends, g') := by
  obtain ⟨_, _, _, laid⟩ := Layout.exists_term_of_particle laid (by simp)
  simp only [Layout.term, Layout.inSequence, Layout.bind_ok] at laid
  obtain ⟨_, _, _, _, _, ⟨_, _, first, _, _, _, _, _, rest, _⟩, _⟩ := laid
  exact ⟨⟨_, _, _, first⟩, _, _, _, rest⟩

theorem accepts_concatenation_iff (built : build (.once (.sequence [p, q])) = .ok whole) :
    (¬q.IsDroppedAll → ∃ rest, build q = .ok rest) ∧ ∀ names, whole.accepts names = true ↔
      ∃ u v, names = u ++ v ∧ p.TakesWithin u ∧ q.TakesWithin v := by
  obtain ⟨_, _, _, laid⟩ := exists_layout_of_build built
  obtain ⟨⟨_, _, _, laidFirst⟩, _, _, _, laidRest⟩ := exists_layout_of_sequence laid
  refine ⟨fun keeps => ?_, fun names => ?_⟩
  · obtain ⟨rest, builtRest, _⟩ := exists_build_of_layout laidRest keeps
    exact ⟨rest, builtRest⟩
  · obtain ⟨_, built', accepts⟩ := exists_build_of_layout laid (nomatch ·.1)
    obtain rfl := Except.ok.inj (built.symm.trans built')
    simp only [accepts, takesWithin_iff_mem_language laidFirst,
      takesWithin_iff_mem_language laidRest, language_once, Term.language, languages,
      List.prod_cons, List.prod_nil, mul_one, Language.mem_mul]
    constructor
    · rintro ⟨u, hu, v, hv, rfl⟩
      exact ⟨u, v, rfl, hu, hv⟩
    · rintro ⟨u, v, rfl, hu, hv⟩
      exact ⟨u, hu, v, hv, rfl⟩

end XmlSchema.ContentModel
