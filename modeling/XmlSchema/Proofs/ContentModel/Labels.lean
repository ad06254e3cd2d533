import XmlSchema.ContentModel.Basic

namespace XmlSchema.ContentModel

open Component (QName)

variable {δ : Type}

mutual

def Particle.elements : Particle δ → List (ElementTerm δ)
  | ⟨_, _, t⟩ => t.elements

def Term.elements : Term δ → List (ElementTerm δ)
  | .element e => [e]
  | .wildcard _ => []
  | .sequence children | .choice children | .all children => allElements children

def allElements : List (Particle δ) → List (ElementTerm δ)
  | [] => []
  | p :: ps => p.elements ++ allElements ps

end

theorem mem_allElements {ps : List (Particle δ)} {e : ElementTerm δ} :
    e ∈ allElements ps ↔ ∃ p ∈ ps, e ∈ p.elements := by
  induction ps with
  | nil => simp [allElements]
  | cons p ps ih => simp [allElements, ih]

def Layout.Adds {α : Type} (allowed : Label δ → Prop) (layout : Layout δ α) : Prop :=
  ∀ g a g', layout g = .ok (a, g') → (∀ label ∈ g.labels.toList, allowed label) →
    ∀ label ∈ g'.labels.toList, allowed label

namespace Layout

variable {α β : Type} {allowed : Label δ → Prop}

theorem adds_pure (a : α) : Adds allowed (pure a : Layout δ α) := by
  intro g _ g' ran before
  cases ran
  exact before

theorem adds_throw (fault : ModelFault) : Adds allowed (throw fault : Layout δ α) := by
  intro g _ g' ran
  cases ran

theorem adds_bind {first : Layout δ α} {rest : α → Layout δ β} (addsFirst : Adds allowed first)
    (addsRest : ∀ a, Adds allowed (rest a)) : Adds allowed (first >>= rest) := by
  intro g b g' ran before
  cases ranFirst : first g with
  | error fault => simp [bind, StateT.bind, Except.bind, ranFirst] at ran
  | ok result =>
    obtain ⟨a, middle⟩ := result
    simp only [bind, StateT.bind, Except.bind, ranFirst] at ran
    exact addsRest a _ _ _ ran (addsFirst _ _ _ ranFirst before)

theorem adds_newState : Adds allowed (newState : Layout δ Nat) := by
  intro g _ g' ran before
  unfold newState at ran
  split at ran
  · cases ran
  · cases ran
    exact before

theorem adds_epsilon (source target : Nat) : Adds allowed (epsilon source target : Layout δ Unit) := by
  intro g _ g' ran before
  cases ran
  exact before

theorem adds_labelled {label : Label δ} (holds : allowed label) : Adds allowed (labelled label) := by
  refine adds_bind adds_newState fun source => adds_bind adds_newState fun target => ?_
  refine adds_bind (fun g _ g' ran before => ?_) fun _ => adds_pure _
  cases ran
  simpa [or_imp, forall_and, holds] using before

variable {body : Layout δ (Nat × Nat)}

theorem adds_copies (adds : Adds allowed body) (n current : Nat) :
    Adds allowed (copies body n current) := by
  induction n generalizing current with
  | zero => exact adds_pure _
  | succ n ih => exact adds_bind adds fun _ => adds_bind (adds_epsilon _ _) fun _ => ih _

theorem adds_optionalCopies (adds : Adds allowed body) (final n current : Nat) :
    Adds allowed (optionalCopies body final n current) := by
  induction n generalizing current with
  | zero => exact adds_pure _
  | succ n ih =>
    exact adds_bind (adds_epsilon _ _) fun _ => adds_bind adds fun _ =>
      adds_bind (adds_epsilon _ _) fun _ => ih _

theorem adds_loop (adds : Adds allowed body) (current : Nat) : Adds allowed (loop body current) :=
  adds_bind adds_newState fun _ => adds_bind adds fun _ => adds_bind (adds_epsilon _ _) fun _ =>
    adds_bind (adds_epsilon _ _) fun _ => adds_bind (adds_epsilon _ _) fun _ => adds_pure _

theorem adds_bounded (adds : Adds allowed body) (min max : Nat) :
    Adds allowed (do
      let start ← newState
      match some max with
      | none => do
        let current ← copies body min start
        pure (start, ← loop body current)
      | some 0 => pure (start, start)
      | some (max + 1) => do
        let current ← copies body min start
        let final ← newState
        let current ← optionalCopies body final (max + 1 - min) current
        epsilon current final
        pure (start, final)) := by
  cases max with
  | zero => exact adds_bind adds_newState fun _ => adds_pure _
  | succ max =>
    exact adds_bind adds_newState fun _ => adds_bind (adds_copies adds _ _) fun _ =>
      adds_bind adds_newState fun _ => adds_bind (adds_optionalCopies adds _ _ _) fun _ =>
        adds_bind (adds_epsilon _ _) fun _ => adds_pure _

mutual

theorem adds_particle (wildcards : ∀ w, allowed (.wildcard w)) : (p : Particle δ) →
    (∀ e ∈ p.elements, allowed (.element e)) → Adds allowed (particle p)
  | ⟨min, max, t⟩, elements => by
      have adds := adds_term wildcards t elements
      unfold particle
      match max with
      | none =>
        exact adds_bind adds_newState fun _ => adds_bind (adds_copies adds _ _) fun _ =>
          adds_bind (adds_loop adds _) fun _ => adds_pure _
      | some max =>
        dsimp only
        split
        · exact adds_bind (adds_throw _) fun _ => adds_bounded adds min max
        · exact adds_bounded adds min max

theorem adds_term (wildcards : ∀ w, allowed (.wildcard w)) : (t : Term δ) →
    (∀ e ∈ t.elements, allowed (.element e)) → Adds allowed (term t)
  | .element e, elements => adds_labelled (elements e (by simp [Term.elements]))
  | .wildcard w, _ => adds_labelled (wildcards w)
  | .sequence children, elements =>
      adds_bind adds_newState fun _ =>
        adds_bind (adds_inSequence wildcards children elements _) fun _ => adds_pure _
  | .choice children, elements =>
      adds_bind adds_newState fun _ => adds_bind adds_newState fun _ =>
        adds_bind (adds_inParallel wildcards children elements _ _) fun _ => adds_pure _
  | .all _, _ => adds_throw _

theorem adds_inSequence (wildcards : ∀ w, allowed (.wildcard w)) : (ps : List (Particle δ)) →
    (∀ e ∈ allElements ps, allowed (.element e)) → ∀ current, Adds allowed (inSequence ps current)
  | [], _, _ => adds_pure _
  | p :: ps, elements, _ =>
      adds_bind (adds_particle wildcards p fun e member =>
        elements e (List.mem_append_left _ member)) fun _ =>
      adds_bind (adds_epsilon _ _) fun _ =>
        adds_inSequence wildcards ps (fun e member => elements e (List.mem_append_right _ member)) _

theorem adds_inParallel (wildcards : ∀ w, allowed (.wildcard w)) : (ps : List (Particle δ)) →
    (∀ e ∈ allElements ps, allowed (.element e)) → ∀ start final,
      Adds allowed (inParallel ps start final)
  | [], _, _, _ => adds_pure _
  | p :: ps, elements, _, _ =>
      adds_bind (adds_particle wildcards p fun e member =>
        elements e (List.mem_append_left _ member)) fun _ =>
      adds_bind (adds_epsilon _ _) fun _ => adds_bind (adds_epsilon _ _) fun _ =>
        adds_inParallel wildcards ps (fun e member => elements e (List.mem_append_right _ member))
          _ _

end

end Layout

theorem mem_elements {model : ContentModel δ} {e : ElementTerm δ} :
    e ∈ model.elements ↔ .element e ∈ model.labels := by
  simp only [elements, List.mem_filterMap]
  constructor
  · rintro ⟨_ | _, member, equal⟩
    · cases equal
      exact member
    · cases equal
  · exact fun member => ⟨_, member, rfl⟩

theorem members_ok {ps : List (Particle δ)} {ms : List (Member δ)} (given : members ps = .ok ms) :
    ∀ m ∈ ms, m.term ∈ allElements ps := by
  induction ps generalizing ms with
  | nil => cases given; simp
  | cons p ps ih =>
    obtain ⟨e, element, others⟩ := members_cons_ok given
    obtain ⟨_, _, _⟩ := p
    obtain rfl : _ = Term.element e := element
    intro m member
    rcases others with ⟨-, others⟩ | ⟨-, rest, others, rfl⟩
    · exact List.mem_append_right _ (ih others m member)
    · rcases List.mem_cons.1 member with rfl | member
      · exact List.mem_append_left _ (by simp [Particle.elements, Term.elements])
      · exact List.mem_append_right _ (ih others m member)

theorem mem_elements_of_ofParticle {p : Particle δ} {a : Automaton δ}
    (laid : Automaton.ofParticle p = .ok a) {e : ElementTerm δ}
    (member : .element e ∈ a.labels.toList) : e ∈ p.elements := by
  let allowed (label : Label δ) : Prop := ∀ e, label = .element e → e ∈ p.elements
  have adds : Layout.Adds allowed (Layout.particle p) :=
    Layout.adds_particle (fun _ _ equal => nomatch equal) p fun e member _ equal => by
      cases equal
      exact member
  exact adds _ _ _ (ofParticle_eq_ok laid) (fun label member => by simp at member) _ member e rfl

theorem mem_elements_of_build {p : Particle δ} {model : ContentModel δ}
    (built : build p = .ok model) {e : ElementTerm δ} (member : e ∈ model.elements) :
    e ∈ p.elements := by
  rw [mem_elements] at member
  rcases build_cases built with ⟨children, ms, group, given, rfl⟩ | ⟨a, laid, rfl⟩
  · obtain ⟨m, among, equal⟩ := List.mem_map.1 member
    cases equal
    obtain ⟨_, _, _⟩ := p
    obtain rfl : _ = Term.all children := group
    exact members_ok given m among
  · exact mem_elements_of_ofParticle laid member

theorem mem_labels_of_markSeen {name : QName} {ms : List (Member δ)} {seen after : List Bool}
    {e : ElementTerm δ} (marked : markSeen name ms seen = some (e, after)) :
    ∃ m ∈ ms, m.term = e := by
  induction ms generalizing seen after with
  | nil => cases marked
  | cons m ms ih =>
    cases seen with
    | nil => cases marked
    | cons s seen =>
      simp only [markSeen] at marked
      split at marked
      · cases marked
        exact ⟨m, List.mem_cons_self, rfl⟩
      · obtain ⟨⟨_, _⟩, found, equal⟩ := Option.map_eq_some_iff.1 marked
        cases equal
        obtain ⟨m', member, rfl⟩ := ih found
        exact ⟨m', List.mem_cons_of_mem _ member, rfl⟩

theorem mem_labels_of_step {model : ContentModel δ} {state next : State} {name : QName}
    {label : Label δ} (stepped : model.step state name = some (label, next)) :
    label ∈ model.labels := by
  match model, state with
  | .automaton a, .automaton active =>
    simp only [step, bind, Option.bind_eq_some_iff, pure, Option.some.injEq, Prod.mk.injEq] at stepped
    obtain ⟨_, _, _, found, rfl, _⟩ := stepped
    exact Array.mem_toList_iff.2 (Array.mem_of_getElem? found)
  | .all ms _, .all seen =>
    obtain ⟨⟨e, _⟩, marked, equal⟩ := Option.map_eq_some_iff.1 stepped
    cases equal
    obtain ⟨m, member, rfl⟩ := mem_labels_of_markSeen marked
    exact List.mem_map.2 ⟨m, member, rfl⟩
  | .empty, _ | .automaton _, .empty | .automaton _, .all _ | .all _ _, .empty
  | .all _ _, .automaton _ => cases stepped

end XmlSchema.ContentModel
