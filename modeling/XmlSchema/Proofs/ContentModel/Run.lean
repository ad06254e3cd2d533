import XmlSchema.ContentModel.Basic

namespace XmlSchema.ContentModel

open Component (QName)

variable {δ : Type}

def run (model : ContentModel δ) : State → List QName → Option State
  | state, [] => some state
  | state, name :: names => do
    let (_, state) ← model.step state name
    run model state names

theorem run_append (model : ContentModel δ) (state : State) (names more : List QName) :
    model.run state (names ++ more) = (model.run state names).bind fun state => model.run state more := by
  induction names generalizing state with
  | nil => rfl
  | cons name names ih =>
      simp only [List.cons_append, run]
      cases model.step state name with
      | none => rfl
      | some result => exact ih result.2

def accepts (model : ContentModel δ) (names : List QName) : Bool :=
  (model.run model.start names).any model.isAccepting

theorem accepts_iff {model : ContentModel δ} {names : List QName} :
    model.accepts names = true ↔
      ∃ state, model.run model.start names = some state ∧ model.isAccepting state = true := by
  simp [accepts, Option.any_eq_true]

/-- The content models that there are: the one without children, and those of particles. -/
inductive IsBuilt : ContentModel δ → Prop where
  | empty : IsBuilt .empty
  | ofParticle {p : Particle δ} {model : ContentModel δ} (built : build p = .ok model) :
    IsBuilt model

def after (model : ContentModel δ) (state : State) (name : QName) : State :=
  match model.step state name with
  | some (_, next) => next
  | none => state

inductive Reachable (model : ContentModel δ) : State → Prop where
  | start : Reachable model model.start
  | child {state : State} (before : Reachable model state) (name : QName) :
    Reachable model (model.after state name)

inductive Fits : ContentModel δ → State → Prop where
  | empty : Fits .empty .empty
  | automaton (a : Automaton δ) (active : List Nat) : Fits (.automaton a) (.automaton active)
  | all {ms : List (Member δ)} {emptiable : Bool} {seen : List Bool}
    (length : seen.length = ms.length) : Fits (.all ms emptiable) (.all seen)

theorem length_markSeen {name : QName} {ms : List (Member δ)} {seen after : List Bool}
    {e : ElementTerm δ} (marked : markSeen name ms seen = some (e, after)) :
    after.length = seen.length := by
  induction ms generalizing seen after with
  | nil => cases marked
  | cons m ms ih =>
    cases seen with
    | nil => cases marked
    | cons s seen =>
      simp only [markSeen] at marked
      split at marked
      · cases marked
        rfl
      · obtain ⟨⟨_, rest⟩, found, equal⟩ := Option.map_eq_some_iff.1 marked
        cases equal
        simp [ih found]

theorem Fits.after {model : ContentModel δ} {state : State} (fits : Fits model state)
    (name : QName) : Fits model (model.after state name) := by
  unfold ContentModel.after
  split
  · next label next stepped =>
    cases fits with
    | empty => cases stepped
    | automaton a active =>
      simp only [step, bind, Option.bind_eq_some_iff] at stepped
      obtain ⟨⟨_, active⟩, _, _, _, equal⟩ := stepped
      cases equal
      exact .automaton a active
    | all length =>
      obtain ⟨⟨_, seen⟩, marked, equal⟩ := Option.map_eq_some_iff.1 stepped
      cases equal
      exact .all ((length_markSeen marked).trans length)
  · exact fits

theorem Reachable.fits {model : ContentModel δ} {state : State} (reachable : model.Reachable state) :
    Fits model state := by
  induction reachable with
  | start =>
    cases model with
    | empty => exact .empty
    | automaton a => exact .automaton a _
    | all ms emptiable => exact .all (List.length_map _)
  | child _ name ih => exact ih.after name

end XmlSchema.ContentModel
