import Std.Data.TreeSet
import XmlSchema.Component.Name

/-!
# Particles and automata over child elements

The particles of a complex type say which child elements it takes and in which order. Declarations
of elements are left open as a parameter: what children are taken depends on their names alone.

An automaton reads the names of the children of an element. Labelled transitions read one child,
and epsilon transitions none. `Automaton.ofParticle` lays a particle out: each time that a term may
or must occur is a copy of the term of its own, so bounds are kept exactly, and an automaton that
would need more than `maxStates` states is refused.

Matching keeps the set of all states that the automaton can be in, in increasing order and closed
under epsilon transitions.
-/

namespace XmlSchema.ContentModel

open Component (QName Wildcard)

/-! ## Particles -/

/-- An element among the children, with its declaration if that stands at this very place. Without
one, the name refers to a global declaration. -/
structure ElementTerm (δ : Type) where
  name : QName
  declaration : Option δ

mutual

/-- A term with the number of times that it occurs. Without `max` there is no upper bound. -/
structure Particle (δ : Type) where
  min : Nat
  max : Option Nat
  term : Term δ

inductive Term (δ : Type) where
  | element (e : ElementTerm δ)
  | wildcard (w : Wildcard)
  | sequence (children : List (Particle δ))
  | choice (children : List (Particle δ))
  | all (children : List (Particle δ))

end

namespace Particle
variable {δ : Type}

def once (term : Term δ) : Particle δ := { min := 1, max := some 1, term }

instance : Inhabited (Particle δ) := ⟨once (.sequence [])⟩

def anyNumber (w : Wildcard) : Particle δ := { min := 0, max := none, term := .wildcard w }

mutual

def isEmptiable : Particle δ → Bool
  | ⟨min, _, term⟩ => min == 0 || termIsEmptiable term

def termIsEmptiable : Term δ → Bool
  | .element _ | .wildcard _ => false
  | .sequence children | .all children => allEmptiable children
  | .choice children => anyEmptiable children

def allEmptiable : List (Particle δ) → Bool
  | [] => true
  | p :: ps => p.isEmptiable && allEmptiable ps

def anyEmptiable : List (Particle δ) → Bool
  | [] => false
  | p :: ps => p.isEmptiable || anyEmptiable ps

end

end Particle

/-! ## Automata -/

def maxStates : Nat := 200000

inductive ModelFault where
  | boundsInverted (min max : Nat)
  | allNested
  | allRepeated
  | allWithOtherTerm
  | allMemberRepeated (localName : String)
  | tooLarge
  deriving DecidableEq, Repr

def ModelFault.message : ModelFault → String
  | .boundsInverted min max => s!"maxOccurs ({max}) is less than minOccurs ({min})"
  | .allNested => "xs:all may only appear as the entire content model"
  | .allRepeated => "xs:all must have maxOccurs of 1"
  | .allWithOtherTerm => "xs:all may only contain element particles"
  | .allMemberRepeated localName =>
    s!"element '{localName}' in xs:all must have maxOccurs of 0 or 1"
  | .tooLarge =>
    s!"content model needs more than {maxStates} automaton states to honour its occurrence bounds"

inductive Label (δ : Type) where
  | element (e : ElementTerm δ)
  | wildcard (w : Wildcard)

namespace Label
variable {δ : Type}

def accepts (name : QName) : Label δ → Bool
  | .element e => e.name == name
  | .wildcard w => w.allows name.ns

def overlaps : Label δ → Label δ → Bool
  | .element a, .element b => a.name == b.name
  | .element e, .wildcard w | .wildcard w, .element e => w.allows e.name.ns
  | .wildcard a, .wildcard b => a.overlaps b

def description : Label δ → String
  | .element e => e.name.quoted
  | .wildcard w => w.description

end Label

/-- States, labelled transitions between them and epsilon transitions. -/
structure Graph (δ : Type) where
  labels : Array (Label δ)
  /-- For each state, the labels that can be read there, each with the state after it. -/
  transitions : Array (List (Nat × Nat))
  /-- For each state, the states that are reached without reading. -/
  epsilons : Array (List Nat)

structure Automaton (δ : Type) extends Graph δ where
  start : Nat
  accept : Nat

/-! ## Layout -/

abbrev Layout (δ : Type) := StateT (Graph δ) (Except ModelFault)

namespace Layout
variable {δ : Type}

def newState : Layout δ Nat := fun g =>
  if maxStates ≤ g.transitions.size then .error .tooLarge
  else .ok (g.transitions.size,
    { g with transitions := g.transitions.push [], epsilons := g.epsilons.push [] })

def epsilon (source target : Nat) : Layout δ Unit := fun g =>
  .ok ((), { g with epsilons := g.epsilons.modify source (target :: ·) })

def labelled (label : Label δ) : Layout δ (Nat × Nat) := do
  let source ← newState
  let target ← newState
  modify fun ⟨labels, transitions, epsilons⟩ =>
    let index := labels.size
    ⟨labels.push label, transitions.modify source ((index, target) :: ·), epsilons⟩
  pure (source, target)

def copies (body : Layout δ (Nat × Nat)) : Nat → Nat → Layout δ Nat
  | 0, current => pure current
  | n + 1, current => do
    let (entry, exit) ← body
    epsilon current entry
    copies body n exit

def optionalCopies (body : Layout δ (Nat × Nat)) (final : Nat) : Nat → Nat → Layout δ Nat
  | 0, current => pure current
  | n + 1, current => do
    epsilon current final
    let (entry, exit) ← body
    epsilon current entry
    optionalCopies body final n exit

def loop (body : Layout δ (Nat × Nat)) (current : Nat) : Layout δ Nat := do
  let hub ← newState
  let (entry, exit) ← body
  epsilon current hub
  epsilon hub entry
  epsilon exit hub
  pure hub

mutual

/-- Lays out a particle. The result is the state in front of it and the state behind it. -/
def particle : Particle δ → Layout δ (Nat × Nat)
  | ⟨min, max, t⟩ => do
    if let some max := max then
      if max < min then throw (.boundsInverted min max)
    let start ← newState
    match max with
    | none => do
      let current ← copies (term t) min start
      pure (start, ← loop (term t) current)
    | some 0 => pure (start, start)
    | some (max + 1) => do
      let current ← copies (term t) min start
      let final ← newState
      let current ← optionalCopies (term t) final (max + 1 - min) current
      epsilon current final
      pure (start, final)

def term : Term δ → Layout δ (Nat × Nat)
  | .element e => labelled (.element e)
  | .wildcard w => labelled (.wildcard w)
  | .sequence children => do
    let start ← newState
    pure (start, ← inSequence children start)
  | .choice children => do
    let start ← newState
    let final ← newState
    inParallel children start final
    pure (start, final)
  | .all _ => throw .allNested

def inSequence : List (Particle δ) → Nat → Layout δ Nat
  | [], current => pure current
  | p :: ps, current => do
    let (entry, exit) ← particle p
    epsilon current entry
    inSequence ps exit

def inParallel : List (Particle δ) → Nat → Nat → Layout δ Unit
  | [], _, _ => pure ()
  | p :: ps, start, final => do
    let (entry, exit) ← particle p
    epsilon start entry
    epsilon exit final
    inParallel ps start final

end

end Layout

namespace Graph
variable {δ : Type}

/-! ## Matching -/

def epsilonsOf (g : Graph δ) (state : Nat) : List Nat := (g.epsilons[state]?).getD []

def addNew (acc : Std.TreeSet Nat × List Nat) (states : List Nat) : Std.TreeSet Nat × List Nat :=
  states.foldl (fun (seen, fresh) state =>
    if seen.contains state then (seen, fresh) else (seen.insert state, state :: fresh)) acc

/-- Adds the states that are reached from the states of a frontier. A graph has no longer paths
than states, so as many rounds as there are states are enough. -/
def spread (g : Graph δ) : Nat → Std.TreeSet Nat → List Nat → Std.TreeSet Nat
  | 0, seen, _ => seen
  | _ + 1, seen, [] => seen
  | rounds + 1, seen, frontier =>
    let (seen, fresh) := frontier.foldl (fun acc state => addNew acc (g.epsilonsOf state)) (seen, [])
    spread g rounds seen fresh

def closure (g : Graph δ) (states : List Nat) : List Nat :=
  let (seen, fresh) := addNew (.empty, []) states
  (g.spread (g.epsilons.size + 1) seen fresh).toList

def outgoing (g : Graph δ) (states : List Nat) : List (Nat × Nat) :=
  states.flatMap fun state => (g.transitions[state]?).getD []

def accepts (g : Graph δ) (name : QName) (label : Nat) : Bool :=
  (g.labels[label]?).any (·.accepts name)

/-- Which of two labels an element is taken for: elements go before wildcards, and of two of a kind
the earlier one is taken. -/
def prefer (g : Graph δ) (a b : Nat) : Nat :=
  match g.labels[a]?, g.labels[b]? with
  | some (.wildcard _), some (.element _) => b
  | some (.element _), some (.wildcard _) => a
  | _, _ => min a b

/-- Reads a child. The result is the label that it is taken for and the states after it. -/
def step (g : Graph δ) (active : List Nat) (name : QName) : Option (Nat × List Nat) :=
  match (g.outgoing active).filter fun t => g.accepts name t.1 with
  | [] => none
  | t :: ts =>
    some (ts.foldl (fun best t => g.prefer best t.1) t.1, g.closure ((t :: ts).map (·.2)))

def labelsFrom (g : Graph δ) (active : List Nat) : List Nat :=
  ((g.outgoing active).map (·.1)).mergeSort

def expected (g : Graph δ) (active : List Nat) : List String :=
  ((g.labelsFrom active).filterMap fun label => (g.labels[label]?).map (·.description)).eraseDups

end Graph

namespace Automaton
variable {δ : Type}

def ofParticle (p : Particle δ) : Except ModelFault (Automaton δ) := do
  let ((start, accept), g) ← Layout.particle p ⟨#[], #[], #[]⟩
  pure { g with start, accept }

end Automaton

theorem ofParticle_eq_ok {δ : Type} {p : Particle δ} {a : Automaton δ}
    (built : Automaton.ofParticle p = .ok a) :
    Layout.particle p ⟨#[], #[], #[]⟩ = .ok ((a.start, a.accept), a.toGraph) := by
  unfold Automaton.ofParticle at built
  cases laid : Layout.particle p ⟨#[], #[], #[]⟩ with
  | error fault => simp [laid, bind, Except.bind] at built
  | ok result =>
      obtain ⟨⟨start, accept⟩, g⟩ := result
      simp only [laid, bind, Except.bind, pure, Except.pure, Except.ok.injEq] at built
      subst built
      rfl

end XmlSchema.ContentModel
