import XmlSchema.Proofs.ContentModel.Matching

namespace XmlSchema.ContentModel

open Component (QName)

variable {δ : Type}

def Label.isElement : Label δ → Bool
  | .element _ => true
  | .wildcard _ => false

section Order
variable {labels : List (Label δ)} {i j k : Nat}

def isElementAt (labels : List (Label δ)) (i : Nat) : Bool := (labels[i]?).any (·.isElement)

def Precedes (labels : List (Label δ)) (i j : Nat) : Prop :=
  if isElementAt labels i = isElementAt labels j then i ≤ j else isElementAt labels i = true

theorem precedes_refl (labels : List (Label δ)) (i : Nat) : Precedes labels i i := by
  simp [Precedes]

theorem Precedes.trans (first : Precedes labels i j) (second : Precedes labels j k) :
    Precedes labels i k := by
  unfold Precedes at *
  grind

theorem Precedes.antisymm (first : Precedes labels i j) (second : Precedes labels j i) : i = j := by
  unfold Precedes at *
  grind

end Order

namespace Graph

variable {g : Graph δ} {name : QName}

theorem prefer_precedes {a b : Nat} (first : a < g.labels.size) (second : b < g.labels.size) :
    Precedes g.labels.toList (g.prefer a b) a ∧ Precedes g.labels.toList (g.prefer a b) b := by
  have kindFirst : isElementAt g.labels.toList a = g.labels[a].isElement := by
    simp [isElementAt, first]
  have kindSecond : isElementAt g.labels.toList b = g.labels[b].isElement := by
    simp [isElementAt, second]
  unfold prefer Precedes
  rw [Array.getElem?_eq_getElem first, Array.getElem?_eq_getElem second]
  cases foundFirst : g.labels[a] <;> cases foundSecond : g.labels[b] <;> grind [Label.isElement]

theorem foldl_prefer_precedes {best : Nat} {ts : List (Nat × Nat)} (lt : best < g.labels.size)
    (lts : ∀ t ∈ ts, t.1 < g.labels.size) :
    Precedes g.labels.toList (ts.foldl (fun best t => g.prefer best t.1) best) best ∧
      ∀ t ∈ ts, Precedes g.labels.toList (ts.foldl (fun best t => g.prefer best t.1) best) t.1 := by
  induction ts generalizing best with
  | nil => exact ⟨precedes_refl _ _, by simp⟩
  | cons t ts ih =>
    obtain ⟨ltFirst, ltRest⟩ := List.forall_mem_cons.1 lts
    have next : g.prefer best t.1 < g.labels.size := by
      rcases g.prefer_mem best t.1 with chosen | chosen <;> rwa [chosen]
    obtain ⟨left, right⟩ := prefer_precedes lt ltFirst
    obtain ⟨before, beforeRest⟩ := ih next ltRest
    rw [List.foldl_cons]
    exact ⟨before.trans left, List.forall_mem_cons.2 ⟨before.trans right, beforeRest⟩⟩

theorem lt_of_accepts {i : Nat} (accepted : g.accepts name i = true) : i < g.labels.size := by
  obtain ⟨l, found, -⟩ := Option.any_eq_true _ _ |>.1 accepted
  exact (Array.getElem?_eq_some_iff.1 found).1

/-- Reads a child along transitions that are come across in some order. -/
def readAlong (g : Graph δ) (visited : List (Nat × Nat)) (name : QName) : Option (Nat × List Nat) :=
  match visited.filter fun t => g.accepts name t.1 with
  | [] => none
  | t :: ts =>
    some (ts.foldl (fun best t => g.prefer best t.1) t.1, g.closure ((t :: ts).map (·.2)))

theorem step_eq_readAlong (g : Graph δ) (active : List Nat) (name : QName) :
    g.step active name = g.readAlong (g.outgoing active) name := rfl

theorem readAlong_eq_none_iff {visited : List (Nat × Nat)} :
    g.readAlong visited name = none ↔ ∀ t ∈ visited, ¬ g.accepts name t.1 = true := by
  rw [← List.filter_eq_nil_iff]
  unfold readAlong
  split
  · next none => simp [none]
  · next some => simp [some]

theorem readAlong_eq_some {visited : List (Nat × Nat)} {i : Nat} {next : List Nat}
    (read : g.readAlong visited name = some (i, next)) :
    (∃ t ∈ visited, t.1 = i) ∧ g.accepts name i = true ∧
      (∀ t ∈ visited, g.accepts name t.1 = true → Precedes g.labels.toList i t.1) ∧
      next = g.closure ((visited.filter fun t => g.accepts name t.1).map (·.2)) := by
  have taken {t : Nat × Nat} : t ∈ (visited.filter fun t => g.accepts name t.1) ↔
      t ∈ visited ∧ g.accepts name t.1 = true := List.mem_filter
  unfold readAlong at read
  split at read
  · cases read
  · next first rest found =>
    rw [found] at taken ⊢
    obtain ⟨rfl, rfl⟩ := Prod.mk.inj (Option.some.inj read)
    have lt : ∀ t ∈ first :: rest, t.1 < g.labels.size := fun t member =>
      lt_of_accepts (taken.1 member).2
    obtain ⟨ltFirst, ltRest⟩ := List.forall_mem_cons.1 lt
    have chosen := g.foldl_prefer_mem first.1 rest
    rw [← List.map_cons (f := Prod.fst)] at chosen
    obtain ⟨t, member, equal⟩ := List.mem_map.1 chosen
    have least : ∀ t ∈ first :: rest, Precedes g.labels.toList
        (rest.foldl (fun best t => g.prefer best t.1) first.1) t.1 :=
      List.forall_mem_cons.2 (foldl_prefer_precedes ltFirst ltRest)
    refine ⟨⟨t, (taken.1 member).1, equal⟩, equal ▸ (taken.1 member).2, fun t among accepted => ?_, rfl⟩
    exact least t (taken.2 ⟨among, accepted⟩)

theorem readAlong_congr (h : g.WellFormed) {active : List Nat} {visited : List (Nat × Nat)}
    (same : ∀ t, t ∈ visited ↔ t ∈ g.outgoing active) (name : QName) :
    g.readAlong visited name = g.step active name := by
  rw [step_eq_readAlong]
  cases read : g.readAlong visited name with
  | none =>
    rw [readAlong_eq_none_iff] at read
    exact (readAlong_eq_none_iff.2 fun t member => read t ((same t).2 member)).symm
  | some result =>
    obtain ⟨i, next⟩ := result
    obtain ⟨⟨t, member, rfl⟩, accepted, least, rfl⟩ := readAlong_eq_some read
    cases read' : g.readAlong (g.outgoing active) name with
    | none => exact absurd accepted (readAlong_eq_none_iff.1 read' t ((same t).1 member))
    | some result =>
      obtain ⟨i', next'⟩ := result
      obtain ⟨⟨t', member', rfl⟩, accepted', least', rfl⟩ := readAlong_eq_some read'
      have label : t.1 = t'.1 := (least t' ((same t').2 member') accepted').antisymm
        (least' t ((same t).1 member) accepted)
      rw [label]
      have targets (s : Nat) : s ∈ (visited.filter fun t => g.accepts name t.1).map (·.2) ↔
          s ∈ ((g.outgoing active).filter fun t => g.accepts name t.1).map (·.2) := by
        simp only [List.mem_map, List.mem_filter, same]
      rw [closure_congr h (fun s among => ?_) targets]
      obtain ⟨⟨_, _⟩, accepted, rfl⟩ := List.mem_map.1 among
      obtain ⟨s, _, transition⟩ := mem_outgoing.1 ((same _).1 (List.mem_filter.1 accepted).1)
      exact (h.transition_lt _ _ _ transition).2

end Graph

section Members
variable {name : QName} {m : Member δ} {ms : List (Member δ)} {s : Bool} {seen : List Bool}

def Unseen (name : QName) (ms : List (Member δ)) (seen : List Bool) (i : Nat) : Prop :=
  ∃ m, ms[i]? = some m ∧ seen[i]? = some false ∧ m.term.name = name

theorem unseen_zero_iff :
    Unseen name (m :: ms) (s :: seen) 0 ↔ s = false ∧ m.term.name = name := by
  simp [Unseen]

theorem markSeen_cons_of_unseen (unseen : Unseen name (m :: ms) (s :: seen) 0) :
    markSeen name (m :: ms) (s :: seen) = some (m.term, true :: seen) := by
  obtain ⟨rfl, rfl⟩ := unseen_zero_iff.1 unseen
  simp [markSeen]

theorem markSeen_cons_of_not_unseen (other : ¬ Unseen name (m :: ms) (s :: seen) 0) :
    markSeen name (m :: ms) (s :: seen) =
      (markSeen name ms seen).map fun (e, seen) => (e, s :: seen) := by
  have skipped : ¬ (!s && m.term.name == name) = true := by
    simpa [unseen_zero_iff] using other
  rw [markSeen, if_neg skipped]

theorem markSeen_eq_none_iff : markSeen name ms seen = none ↔ ∀ i, ¬ Unseen name ms seen i := by
  induction ms generalizing seen with
  | nil => simp [markSeen, Unseen]
  | cons m ms ih =>
    cases seen with
    | nil => simp [markSeen, Unseen]
    | cons s seen =>
      by_cases unseen : Unseen name (m :: ms) (s :: seen) 0
      · rw [markSeen_cons_of_unseen unseen]
        exact iff_of_false (by simp) fun none => none 0 unseen
      · rw [markSeen_cons_of_not_unseen unseen, Option.map_eq_none_iff, ih]
        constructor
        · rintro none (_ | i)
          · exact unseen
          · exact none i
        · exact fun none i => none (i + 1)

theorem markSeen_eq_some {next : List Bool} {e : ElementTerm δ}
    (marked : markSeen name ms seen = some (e, next)) :
    ∃ i, (∃ m, ms[i]? = some m ∧ m.term = e) ∧ Unseen name ms seen i ∧
      (∀ j, Unseen name ms seen j → i ≤ j) ∧ next = seen.set i true := by
  induction ms generalizing seen next with
  | nil => cases marked
  | cons m ms ih =>
    cases seen with
    | nil => cases marked
    | cons s seen =>
      by_cases unseen : Unseen name (m :: ms) (s :: seen) 0
      · rw [markSeen_cons_of_unseen unseen] at marked
        obtain ⟨rfl, rfl⟩ := Prod.mk.inj (Option.some.inj marked)
        exact ⟨0, ⟨m, rfl, rfl⟩, unseen, fun _ _ => Nat.zero_le _, rfl⟩
      · rw [markSeen_cons_of_not_unseen unseen] at marked
        obtain ⟨⟨_, rest⟩, later, equal⟩ := Option.map_eq_some_iff.1 marked
        obtain ⟨rfl, rfl⟩ := Prod.mk.inj equal
        obtain ⟨i, member, unseenLater, first, rfl⟩ := ih later
        refine ⟨i + 1, member, unseenLater, ?_, rfl⟩
        rintro (_ | j) unseen'
        · exact absurd unseen' unseen
        · exact Nat.succ_le_succ (first j unseen')

end Members

/-- A label, which is given by its index, is offered in a state. -/
def Offers (model : ContentModel δ) (state : State) (i : Nat) : Prop :=
  match model, state with
  | .automaton a, .automaton active => ∃ s ∈ active, ∃ t, (i, t) ∈ a.transitionsOf s
  | .all _ _, .all seen => seen[i]? = some false
  | _, _ => False

/-- A child of some name could be taken for a label. -/
def Candidate (model : ContentModel δ) (state : State) (name : QName) (i : Nat) : Prop :=
  model.Offers state i ∧ ∃ l, model.labels[i]? = some l ∧ l.accepts name = true

/-- A child of some name is taken for a label: it could be, and the label goes before all others
that the child could be taken for. -/
structure Takes (model : ContentModel δ) (state : State) (name : QName) (i : Nat) : Prop where
  candidate : model.Candidate state name i
  first : ∀ j, model.Candidate state name j → Precedes model.labels i j

/-- A state is the one after a child that is taken for a label. In an automaton it consists of all
states, in increasing order, that are reached by reading the name of the child. -/
def LeadsTo (model : ContentModel δ) (state : State) (name : QName) (i : Nat) (next : State) : Prop :=
  match model, state with
  | .automaton a, .automaton active => ∃ reached : List Nat, next = .automaton reached ∧
      reached.Pairwise (· < ·) ∧
      ∀ t, t ∈ reached ↔ ∃ s ∈ active, ∃ r, a.Edge s [name] r ∧ Path a.Edge r [] t
  | .all _ _, .all seen => next = .all (seen.set i true)
  | _, _ => False

section Automaton
variable {a : Automaton δ} {active : List Nat} {name : QName}

theorem getElem?_labels_automaton (i : Nat) :
    (ContentModel.automaton a).labels[i]? = a.labels[i]? := Array.getElem?_toList

theorem offers_automaton_iff {i : Nat} :
    (ContentModel.automaton a).Offers (.automaton active) i ↔ ∃ t ∈ a.outgoing active, t.1 = i := by
  constructor
  · rintro ⟨s, member, t, leaves⟩
    exact ⟨(i, t), Graph.mem_outgoing.2 ⟨s, member, leaves⟩, rfl⟩
  · rintro ⟨⟨_, t⟩, among, rfl⟩
    obtain ⟨s, member, leaves⟩ := Graph.mem_outgoing.1 among
    exact ⟨s, member, t, leaves⟩

theorem candidate_automaton_iff {i : Nat} :
    (ContentModel.automaton a).Candidate (.automaton active) name i ↔
      (∃ t ∈ a.outgoing active, t.1 = i) ∧ a.accepts name i = true := by
  rw [Candidate, offers_automaton_iff, getElem?_labels_automaton, Graph.accepts, Option.any_eq_true]

theorem step_automaton_eq_some_iff {l : Label δ} {next : State} :
    (ContentModel.automaton a).step (.automaton active) name = some (l, next) ↔
      ∃ i reached, a.step active name = some (i, reached) ∧ a.labels[i]? = some l ∧
        .automaton reached = next := by
  simp [step, Option.bind_eq_some_iff]

theorem step_automaton_eq_none_iff :
    (ContentModel.automaton a).step (.automaton active) name = none ↔
      ∀ i, ¬ (ContentModel.automaton a).Candidate (.automaton active) name i := by
  cases read : a.step active name with
  | none =>
    refine iff_of_true (by simp [step, read]) fun i candidate => ?_
    obtain ⟨⟨t, member, rfl⟩, accepted⟩ := candidate_automaton_iff.1 candidate
    rw [Graph.step_eq_readAlong, Graph.readAlong_eq_none_iff] at read
    exact read t member accepted
  | some result =>
    obtain ⟨i, reached⟩ := result
    obtain ⟨member, accepted, -⟩ := Graph.readAlong_eq_some read
    obtain ⟨l, found, -⟩ := Option.any_eq_true _ _ |>.1 accepted
    refine iff_of_false ?_ fun none => none i (candidate_automaton_iff.2 ⟨member, accepted⟩)
    rw [step_automaton_eq_some_iff.2 ⟨i, reached, read, found, rfl⟩]
    simp

theorem takes_of_step_automaton (h : a.toGraph.WellFormed) {l : Label δ} {next : State}
    (stepped : (ContentModel.automaton a).step (.automaton active) name = some (l, next)) :
    ∃ i, (ContentModel.automaton a).labels[i]? = some l ∧
      (ContentModel.automaton a).Takes (.automaton active) name i ∧
      (ContentModel.automaton a).LeadsTo (.automaton active) name i next := by
  obtain ⟨i, reached, read, found, rfl⟩ := step_automaton_eq_some_iff.1 stepped
  obtain ⟨member, accepted, first, sorted⟩ := Graph.readAlong_eq_some read
  refine ⟨i, (getElem?_labels_automaton i).trans found,
    ⟨candidate_automaton_iff.2 ⟨member, accepted⟩, fun j candidate => ?_⟩,
    reached, rfl, sorted ▸ Graph.pairwise_closure _ _, (Graph.mem_step h read).2.2⟩
  obtain ⟨⟨t, among, rfl⟩, accepted⟩ := candidate_automaton_iff.1 candidate
  exact first t among accepted

end Automaton

section All
variable {ms : List (Member δ)} {emptiable : Bool} {seen : List Bool} {name : QName}

theorem getElem?_labels_all (i : Nat) :
    (ContentModel.all ms emptiable).labels[i]? = (ms[i]?).map fun m => .element m.term := by
  simp [labels]

theorem candidate_all_iff {i : Nat} :
    (ContentModel.all ms emptiable).Candidate (.all seen) name i ↔ Unseen name ms seen i := by
  rw [Candidate, getElem?_labels_all]
  constructor
  · rintro ⟨unseen, l, found, accepted⟩
    obtain ⟨m, member, rfl⟩ := Option.map_eq_some_iff.1 found
    exact ⟨m, member, unseen, beq_iff_eq.1 accepted⟩
  · rintro ⟨m, member, unseen, named⟩
    exact ⟨unseen, .element m.term, by rw [member]; rfl, beq_iff_eq.2 named⟩

theorem precedes_all {i j : Nat} (first : Unseen name ms seen i) (second : Unseen name ms seen j)
    (le : i ≤ j) : Precedes (ContentModel.all ms emptiable).labels i j := by
  have element {i : Nat} (unseen : Unseen name ms seen i) :
      isElementAt (ContentModel.all ms emptiable).labels i = true := by
    obtain ⟨m, member, -⟩ := unseen
    simp [isElementAt, getElem?_labels_all, member, Label.isElement]
  rw [Precedes, if_pos ((element first).trans (element second).symm)]
  exact le

theorem step_all_eq_none_iff :
    (ContentModel.all ms emptiable).step (.all seen) name = none ↔
      ∀ i, ¬ (ContentModel.all ms emptiable).Candidate (.all seen) name i := by
  simp only [candidate_all_iff, ← markSeen_eq_none_iff]
  exact Option.map_eq_none_iff

theorem takes_of_step_all {l : Label δ} {next : State}
    (stepped : (ContentModel.all ms emptiable).step (.all seen) name = some (l, next)) :
    ∃ i, (ContentModel.all ms emptiable).labels[i]? = some l ∧
      (ContentModel.all ms emptiable).Takes (.all seen) name i ∧
      (ContentModel.all ms emptiable).LeadsTo (.all seen) name i next := by
  obtain ⟨⟨_, _⟩, marked, equal⟩ := Option.map_eq_some_iff.1 stepped
  obtain ⟨rfl, rfl⟩ := Prod.mk.inj equal
  obtain ⟨i, ⟨m, member, rfl⟩, unseen, first, rfl⟩ := markSeen_eq_some marked
  refine ⟨i, by rw [getElem?_labels_all, member]; rfl,
    ⟨candidate_all_iff.2 unseen, fun j candidate => ?_⟩, rfl⟩
  have unseen' := candidate_all_iff.1 candidate
  exact precedes_all unseen unseen' (first j unseen')

end All

theorem IsBuilt.wellFormed {a : Automaton δ} (built : IsBuilt (.automaton a)) :
    a.toGraph.WellFormed ∧ a.start < a.toGraph.size := by
  cases built with
  | ofParticle built =>
    rcases build_cases built with ⟨_, _, _, _, equal⟩ | ⟨a, laid, equal⟩
    · cases equal
    · cases equal
      have fragment := ofParticle_ok laid
      exact ⟨fragment.wellFormed, fragment.entry_lt⟩

variable {model : ContentModel δ} {state : State}

theorem Fits.step_eq_none_iff (fits : Fits model state) (name : QName) :
    model.step state name = none ↔ ∀ i, ¬ model.Candidate state name i := by
  cases fits with
  | empty => exact iff_of_true rfl fun i candidate => candidate.1
  | automaton a active => exact step_automaton_eq_none_iff
  | all => exact step_all_eq_none_iff

theorem Fits.takes_of_step (built : model.IsBuilt) (fits : Fits model state) {name : QName}
    {l : Label δ} {next : State} (stepped : model.step state name = some (l, next)) :
    ∃ i, model.labels[i]? = some l ∧ model.Takes state name i ∧
      model.LeadsTo state name i next := by
  cases fits with
  | empty => cases stepped
  | automaton a active => exact takes_of_step_automaton built.wellFormed.1 stepped
  | all => exact takes_of_step_all stepped

theorem Takes.unique {name : QName} {i j : Nat} (first : model.Takes state name i)
    (second : model.Takes state name j) : i = j :=
  (first.first j second.candidate).antisymm (second.first i first.candidate)

theorem LeadsTo.unique {name : QName} {i : Nat} {next other : State}
    (first : model.LeadsTo state name i next) (second : model.LeadsTo state name i other) :
    next = other := by
  unfold LeadsTo at first second
  split at first
  · obtain ⟨reached, rfl, sorted, members⟩ := first
    obtain ⟨reached', rfl, sorted', members'⟩ := second
    rw [sorted.eq_of_mem_iff sorted' fun t => (members t).trans (members' t).symm]
  · exact first.trans second.symm
  · exact first.elim

/-- In every state that is met, a child is refused if no offered label accepts its name, and then the
state stays as it is. Otherwise it is taken for the first of the labels that do: the earliest element
or, without elements, the earliest wildcard. The state after it is reached along all transitions that
accept the name. In whichever order transitions are come across, the outcome is the same. -/
theorem step_takes_first (built : model.IsBuilt) (reachable : model.Reachable state)
    (name : QName) :
    (model.step state name = none ↔ ∀ i, ¬ model.Candidate state name i) ∧
      (model.step state name = none → model.after state name = state) ∧
      (∀ l next, model.step state name = some (l, next) ↔ ∃ i, model.labels[i]? = some l ∧
        model.Takes state name i ∧ model.LeadsTo state name i next) ∧
      ∀ a active, model = .automaton a → state = .automaton active →
        ∀ visited, (∀ t, t ∈ visited ↔ t ∈ a.outgoing active) →
          a.readAlong visited name = a.step active name := by
  have fits := reachable.fits
  refine ⟨fits.step_eq_none_iff name, fun refused => ?_, fun l next => ⟨fits.takes_of_step built, ?_⟩,
    ?_⟩
  · rw [after, refused]
  · rintro ⟨i, found, takes, leads⟩
    cases stepped : model.step state name with
    | none => exact absurd takes.candidate ((fits.step_eq_none_iff name).1 stepped i)
    | some result =>
      obtain ⟨l', next'⟩ := result
      obtain ⟨j, found', takes', leads'⟩ := fits.takes_of_step built stepped
      obtain rfl := takes.unique takes'
      obtain rfl := leads.unique leads'
      obtain rfl := Option.some.inj (found.symm.trans found')
      rfl
  · rintro a active rfl rfl visited same
    exact Graph.readAlong_congr built.wellFormed.1 same name

def wildcardFirst : Particle Unit :=
  .once (.sequence [⟨0, none, .wildcard ⟨.any, .lax⟩⟩, .once (.element ⟨⟨"", "a"⟩, none⟩)])

theorem wildcardFirst_takes_element : ∃ model, build wildcardFirst = .ok model ∧ model.IsBuilt ∧
    ∃ state, state = model.after model.start ⟨"", "b"⟩ ∧ model.Reachable state ∧
      ∃ l i, l.isElement = true ∧ model.labels[i]? = some l ∧ model.Takes state ⟨"", "a"⟩ i := by
  have runs : ((build wildcardFirst).toOption.any fun model =>
      (model.step (model.after model.start ⟨"", "b"⟩) ⟨"", "a"⟩).any (·.1.isElement)) = true := by
    decide +kernel
  cases built : build wildcardFirst with
  | error fault => simp [built, Except.toOption] at runs
  | ok model =>
    simp only [built, Except.toOption, Option.any_some, Option.any_eq_true] at runs
    obtain ⟨⟨l, next⟩, stepped, element⟩ := runs
    have reachable : model.Reachable (model.after model.start ⟨"", "b"⟩) := .child .start _
    obtain ⟨i, found, takes, -⟩ :=
      ((step_takes_first (.ofParticle built) reachable ⟨"", "a"⟩).2.2.1 l next).1 stepped
    exact ⟨model, rfl, .ofParticle built, _, rfl, reachable, l, i, element, found, takes⟩

end XmlSchema.ContentModel
