import XmlSchema.Bisection
import XmlSchema.ContentModel.Automaton

/-!
# Content models

The content model of a complex type is built from its particle. It is an automaton, unless the
particle is an `all` group, whose members are only marked off as they are seen, or there is none.
A `State` says how far the children of one element have been matched.
-/

namespace XmlSchema.ContentModel

structure Member (δ : Type) where
  term : ElementTerm δ
  required : Bool

end ContentModel

inductive ContentModel (δ : Type) where
  | empty
  | automaton (a : ContentModel.Automaton δ)
  | all (members : List (ContentModel.Member δ)) (emptiable : Bool)

namespace ContentModel

open Component (QName)

inductive State where
  | empty
  | automaton (active : List Nat)
  /-- For each member of an `all` group, whether it has been seen. -/
  | all (seen : List Bool)
  deriving DecidableEq, Repr

variable {δ : Type}

/-- The members of an `all` group. One that may not occur at all is left out. -/
def members : List (Particle δ) → Except ModelFault (List (Member δ))
  | [] => .ok []
  | ⟨min, max, .element e⟩ :: ps =>
    match max with
    | some 0 => members ps
    | some 1 => (members ps).map (⟨e, 0 < min⟩ :: ·)
    | _ => .error (.allMemberRepeated e.name.localName)
  | _ :: _ => .error .allWithOtherTerm

theorem members_cons_ok {p : Particle δ} {ps : List (Particle δ)} {ms : List (Member δ)}
    (given : members (p :: ps) = .ok ms) : ∃ e, p.term = .element e ∧
      ((p.max = some 0 ∧ members ps = .ok ms) ∨
        (p.max = some 1 ∧ ∃ rest, members ps = .ok rest ∧ ms = ⟨e, 0 < p.min⟩ :: rest)) := by
  obtain ⟨min, max, t⟩ := p
  cases t with
  | element e =>
    refine ⟨e, rfl, ?_⟩
    rcases max with _ | _ | _ | max
    · cases given
    · exact .inl ⟨rfl, given⟩
    · simp only [members] at given
      cases others : members ps with
      | error fault => simp [others, Except.map] at given
      | ok rest =>
        simp only [others, Except.map, Except.ok.injEq] at given
        exact .inr ⟨rfl, rest, rfl, given.symm⟩
    · cases given
  | _ => cases given

def build (p : Particle δ) : Except ModelFault (ContentModel δ) :=
  match p.term with
  | .all children =>
    if p.max.all (· ≤ 1) && p.max.isSome then
      (members children).map fun ms => .all ms (p.min == 0)
    else .error .allRepeated
  | _ => (Automaton.ofParticle p).map .automaton

theorem build_cases {p : Particle δ} {model : ContentModel δ} (built : build p = .ok model) :
    (∃ children ms, p.term = .all children ∧ members children = .ok ms ∧
      model = .all ms (p.min == 0)) ∨
    ∃ a, Automaton.ofParticle p = .ok a ∧ model = .automaton a := by
  unfold build at built
  split at built
  · next children group =>
    split at built
    · cases given : members children with
      | error fault => simp [given, Except.map] at built
      | ok ms =>
        simp only [given, Except.map, Except.ok.injEq] at built
        exact .inl ⟨children, ms, group, given, built.symm⟩
    · cases built
  · cases laid : Automaton.ofParticle p with
    | error fault => simp [laid, Except.map] at built
    | ok a =>
      simp only [laid, Except.map, Except.ok.injEq] at built
      exact .inr ⟨a, rfl, built.symm⟩

def start : ContentModel δ → State
  | .empty => .empty
  | .automaton a => .automaton (a.closure [a.start])
  | .all ms _ => .all (ms.map fun _ => false)

def markSeen (name : QName) : List (Member δ) → List Bool → Option (ElementTerm δ × List Bool)
  | m :: ms, s :: ss =>
    if !s && m.term.name == name then some (m.term, true :: ss)
    else (markSeen name ms ss).map fun (e, ss) => (e, s :: ss)
  | _, _ => none

/-- Takes a child. The result is what it is taken for and the state after it, unless the child is
not allowed here. -/
def step (model : ContentModel δ) (state : State) (name : QName) : Option (Label δ × State) :=
  match model, state with
  | .automaton a, .automaton active => do
    let (label, active) ← a.step active name
    pure (← a.labels[label]?, .automaton active)
  | .all ms _, .all seen => (markSeen name ms seen).map fun (e, seen) => (.element e, .all seen)
  | _, _ => none

/-- Whether the children may end here. The states of an automaton are in increasing order. -/
def isAccepting (model : ContentModel δ) (state : State) : Bool :=
  match model, state with
  | .automaton a, .automaton active => Bisection.contains active.toArray a.accept
  | .all ms emptiable, .all seen =>
    (emptiable && seen.all (!·)) || (ms.zip seen).all fun (m, s) => !m.required || s
  | _, _ => true

def expected (model : ContentModel δ) (state : State) : List String :=
  match model, state with
  | .automaton a, .automaton active => a.expected active
  | .all ms _, .all seen =>
    ((ms.zip seen).filter fun (_, s) => !s).map fun (m, _) => m.term.name.quoted
  | _, _ => []

def labels : ContentModel δ → List (Label δ)
  | .empty => []
  | .automaton a => a.labels.toList
  | .all ms _ => ms.map fun m => .element m.term

def admits (model : ContentModel δ) (name : QName) : Bool :=
  model.labels.any (·.accepts name)

def elements (model : ContentModel δ) : List (ElementTerm δ) :=
  model.labels.filterMap fun
    | .element e => some e
    | .wildcard _ => none

def elementNames (model : ContentModel δ) : List QName :=
  (model.elements.map (·.name)).eraseDups

end ContentModel

end XmlSchema
