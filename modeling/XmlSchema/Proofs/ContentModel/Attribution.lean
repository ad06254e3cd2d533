import Mathlib.Data.List.Nodup
import Mathlib.Data.List.Perm.Basic
import XmlSchema.ContentModel.Constraint
import XmlSchema.Proofs.Component.Wildcard
import XmlSchema.Proofs.ContentModel.Run

/-!
# Unique particle attribution

The search for an ambiguity finds one if there is any: in an automaton in which none is found, no
name of a child is accepted by two transitions after any children (`attributed_once`). The search
goes over labels and a run over names, but two labels that accept one name overlap, so that in a set
of states without overlaps a name leads where its label leads
(`Graph.Unambiguous.mem_successors_of_step`). The bound on the search is not reached: each set that
is searched is the first one, or the closure of the target of one transition, or the closure of
nothing. The other way round, a search among sets without overlaps finds nothing
(`Graph.findAmbiguity_eq_none`).
-/

namespace XmlSchema

open Component (QName)

/-! ## Overlaps -/

namespace ContentModel

variable {δ : Type}

theorem Label.overlaps_of_accepts {a b : Label δ} {name : QName} (first : a.accepts name = true)
    (second : b.accepts name = true) : a.overlaps b = true := by
  cases a <;> cases b <;> simp only [accepts, overlaps, beq_iff_eq] at *
  · rw [first, second]
  · rwa [first]
  · rwa [second]
  · exact Component.Wildcard.overlaps_of_allows first second

theorem Label.overlaps_comm (a b : Label δ) : a.overlaps b = b.overlaps a := by
  cases a <;> cases b <;> simp only [overlaps]
  · exact Bool.beq_comm
  · exact Component.Wildcard.overlaps_comm _ _

/-! ## Lists without related items -/

section Pairs
variable {α : Type} {r : α → α → Bool}

def Unrelated (r : α → α → Bool) (items : List α) : Prop := items.Pairwise fun a b => r a b = false

theorem unrelated_cons {a : α} {rest : List α} :
    Unrelated r (a :: rest) ↔ (∀ b ∈ rest, r a b = false) ∧ Unrelated r rest :=
  List.pairwise_cons

theorem firstPair_eq_none_iff {items : List α} : firstPair r items = none ↔ Unrelated r items := by
  induction items with
  | nil => exact iff_of_true rfl .nil
  | cons a rest ih =>
    rw [unrelated_cons, ← ih, firstPair]
    cases found : rest.find? (r a) with
    | none =>
      have first : ∀ b ∈ rest, r a b = false := by simpa using found
      exact ⟨fun later => ⟨first, later⟩, And.right⟩
    | some b =>
      have member := List.mem_of_find?_eq_some found
      have related := List.find?_some found
      simp only [reduceCtorEq, false_iff, not_and]
      intro unrelated
      rw [unrelated b member] at related
      cases related

theorem Unrelated.filter_eq {items : List α} (unrelated : Unrelated r items)
    (comm : ∀ a b, r a b = r b a) {a : α} (member : a ∈ items) :
    items.filter (r a) = [a].filter (r a) := by
  induction items with
  | nil => cases member
  | cons b rest ih =>
    obtain ⟨first, later⟩ := unrelated_cons.1 unrelated
    rcases List.mem_cons.1 member with rfl | member
    · have none : rest.filter (r a) = [] := List.filter_eq_nil_iff.2 fun c among => by
        simp [first c among]
      simp only [List.filter_cons, none, List.filter_nil]
    · rw [List.filter_cons_of_neg (by simp [comm a b, first a member]), ih later member]

theorem Unrelated.length_filter_le {items : List α} (unrelated : Unrelated r items)
    {p : α → Bool} (related : ∀ a b, p a = true → p b = true → r a b = true) :
    (items.filter p).length ≤ 1 := by
  match filtered : items.filter p with
  | [] | [_] => simp
  | a :: b :: rest =>
    have apart : Unrelated r (items.filter p) := List.Pairwise.sublist List.filter_sublist unrelated
    have holds : ∀ c ∈ items.filter p, p c = true := fun c member => (List.mem_filter.1 member).2
    rw [filtered] at apart holds
    have far := (unrelated_cons.1 apart).1 b List.mem_cons_self
    rw [related a b (holds a (by simp)) (holds b (by simp))] at far
    cases far

end Pairs

/-! ## Choices -/

namespace Graph

variable {g : Graph δ} {active : List Nat}

def choices (g : Graph δ) (active : List Nat) : List (Label δ × Nat) :=
  (g.outgoing active).filterMap fun (label, target) => (g.labels[label]?).map fun l => (l, target)

def Unambiguous (g : Graph δ) (active : List Nat) : Prop :=
  Unrelated (fun s t : Label δ × Nat => s.1.overlaps t.1) (g.choices active)

theorem map_fst_choices : (g.choices active).map (·.1) =
    ((g.outgoing active).map (·.1)).filterMap (g.labels[·]?) := by
  simp [choices, List.map_filterMap, List.filterMap_map, Function.comp_def]

theorem unambiguous_iff : g.Unambiguous active ↔
    overlappingLabels ((g.labelsFrom active).filterMap (g.labels[·]?)) = none := by
  have perm : ((g.labelsFrom active).filterMap (g.labels[·]?)).Perm ((g.choices active).map (·.1)) := by
    rw [map_fst_choices]
    exact (List.mergeSort_perm _ _).filterMap _
  have symm {a b : Label δ} (apart : a.overlaps b = false) : b.overlaps a = false :=
    (Label.overlaps_comm b a).trans apart
  rw [overlappingLabels, Option.map_eq_none_iff, firstPair_eq_none_iff, Unrelated,
    perm.pairwise_iff @symm, List.pairwise_map]
  rfl

theorem map_snd_accepted (name : QName) :
    ((g.outgoing active).filter fun t => g.accepts name t.1).map (·.2) =
      ((g.choices active).filter fun c => c.1.accepts name).map (·.2) := by
  unfold choices
  induction g.outgoing active with
  | nil => rfl
  | cons t rest ih =>
    obtain ⟨label, target⟩ := t
    cases found : g.labels[label]? with
    | none => simpa [Graph.accepts, found] using ih
    | some l =>
      cases accepted : l.accepts name <;> simpa [Graph.accepts, found, accepted] using ih

theorem Unambiguous.length_accepted_le (h : g.Unambiguous active) (name : QName) :
    ((g.outgoing active).filter fun t => g.accepts name t.1).length ≤ 1 := by
  have targets : (((g.outgoing active).filter fun t => g.accepts name t.1).map (·.2)).length =
      (((g.choices active).filter fun c => c.1.accepts name).map (·.2)).length := by
    rw [map_snd_accepted]
  rw [List.length_map, List.length_map] at targets
  rw [targets]
  exact h.length_filter_le fun _ _ => Label.overlaps_of_accepts

/-! ## Successors -/

theorem mem_successors_iff {next : List Nat} : next ∈ g.successors active ↔
    ∃ c ∈ g.choices active,
      next = g.closure (((g.choices active).filter fun d => c.1.overlaps d.1).map (·.2)) := by
  have mem_labels (l : Label δ) : (∃ label ∈ g.labelsFrom active, g.labels[label]? = some l) ↔
      ∃ c ∈ g.choices active, c.1 = l := by
    rw [← List.mem_map (f := Prod.fst), map_fst_choices, List.mem_filterMap]
    simp [labelsFrom]
  unfold successors
  rw [List.mem_filterMap]
  constructor
  · rintro ⟨label, member, leads⟩
    obtain ⟨l, found, equal⟩ := Option.bind_eq_some_iff.1 leads
    obtain ⟨c, among, rfl⟩ := (mem_labels l).1 ⟨label, member, found⟩
    exact ⟨c, among, (Option.some.inj equal).symm⟩
  · rintro ⟨c, among, rfl⟩
    obtain ⟨label, member, found⟩ := (mem_labels c.1).2 ⟨c, among, rfl⟩
    exact ⟨label, member, Option.bind_eq_some_iff.2 ⟨c.1, found, rfl⟩⟩

theorem Unambiguous.mem_successors_of_step (h : g.Unambiguous active) {name : QName} {label : Nat}
    {next : List Nat} (stepped : g.step active name = some (label, next)) :
    next ∈ g.successors active := by
  unfold step at stepped
  have atMostOne := h.length_accepted_le name
  have targets := @map_snd_accepted _ g active name
  split at stepped
  · cases stepped
  · next t ts taken =>
    obtain ⟨_, rfl⟩ := Prod.mk.inj (Option.some.inj stepped)
    rw [taken] at atMostOne targets
    obtain rfl : ts = [] := by simpa using atMostOne
    obtain ⟨c, rest, accepted, sameTarget, _⟩ := List.map_eq_cons_iff.1 targets.symm
    obtain ⟨member, accepts⟩ : c ∈ g.choices active ∧ c.1.accepts name = true :=
      List.mem_filter.1 (accepted ▸ List.mem_cons_self)
    refine mem_successors_iff.2 ⟨c, member, ?_⟩
    have self : c.1.overlaps c.1 = true := Label.overlaps_of_accepts accepts accepts
    rw [h.filter_eq (fun _ _ => Label.overlaps_comm _ _) member]
    simp [self, sameTarget]

/-! ## The search -/

def transitionCount (g : Graph δ) : Nat := g.transitions.toList.flatten.length

def places (g : Graph δ) (first : List Nat) : List (List Nat) :=
  first :: g.closure [] :: g.transitions.toList.flatten.map fun t => g.closure [t.2]

theorem mem_flatten_of_mem_choices {c : Label δ × Nat} (member : c ∈ g.choices active) :
    ∃ t ∈ g.transitions.toList.flatten, t.2 = c.2 := by
  obtain ⟨t, leaves, equal⟩ := List.mem_filterMap.1 member
  obtain ⟨_, _, rfl⟩ := Option.map_eq_some_iff.1 equal
  obtain ⟨s, _, ofState⟩ := List.mem_flatMap.1 leaves
  refine ⟨t, ?_, rfl⟩
  cases found : g.transitions[s]? with
  | none => simp [found] at ofState
  | some row =>
    rw [found] at ofState
    exact List.mem_flatten.2 ⟨row, Array.mem_toList_iff.2 (Array.mem_of_getElem? found), ofState⟩

theorem Unambiguous.mem_places (h : g.Unambiguous active) {next : List Nat}
    (member : next ∈ g.successors active) (first : List Nat) : next ∈ g.places first := by
  obtain ⟨c, among, rfl⟩ := mem_successors_iff.1 member
  rw [h.filter_eq (fun _ _ => Label.overlaps_comm _ _) among]
  cases self : c.1.overlaps c.1 with
  | false => simp [self, places]
  | true =>
    obtain ⟨t, transition, sameTarget⟩ := mem_flatten_of_mem_choices among
    have closed : g.closure [c.2] ∈ g.transitions.toList.flatten.map fun t => g.closure [t.2] :=
      List.mem_map.2 ⟨t, transition, by rw [sameTarget]⟩
    simpa [self, places] using .inr (.inr (by simpa using closed))

/-- What holds throughout a search: no overlaps have been met, what comes after the visited sets is
visited or waits in the queue, and no set is visited twice. -/
structure Searching (g : Graph δ) (first : List Nat) (visited queue : List (List Nat)) : Prop where
  unambiguous : ∀ active ∈ visited, g.Unambiguous active
  followed : ∀ active ∈ visited, ∀ next ∈ g.successors active, next ∈ visited ∨ next ∈ queue
  nodup : visited.Nodup
  among : ∀ active ∈ visited ++ queue, active ∈ g.places first

variable {first : List Nat} {visited queue : List (List Nat)}

theorem searching_start (g : Graph δ) (first : List Nat) : g.Searching first [] [first] where
  unambiguous := by simp
  followed := by simp
  nodup := List.nodup_nil
  among := by simp [places]

theorem Searching.length_le (h : g.Searching first visited queue) :
    visited.length ≤ g.transitionCount + 2 := by
  have places : visited ⊆ g.places first := fun active member =>
    h.among active (List.mem_append_left _ member)
  have length : (g.places first).length = g.transitionCount + 2 := by
    rw [Graph.places, List.length_cons, List.length_cons, List.length_map]
    rfl
  exact length ▸ (List.subperm_of_subset h.nodup places).length_le

theorem Searching.skip (h : g.Searching first visited (active :: queue)) (known : active ∈ visited) :
    g.Searching first visited queue where
  unambiguous := h.unambiguous
  followed s member next after := by
    rcases h.followed s member next after with seen | waits
    · exact .inl seen
    · rcases List.mem_cons.1 waits with rfl | waits
      · exact .inl known
      · exact .inr waits
  nodup := h.nodup
  among s member := h.among s (by simp only [List.mem_append, List.mem_cons] at member ⊢; tauto)

theorem Searching.visit (h : g.Searching first visited (active :: queue)) (new : active ∉ visited)
    (unambiguous : g.Unambiguous active) :
    g.Searching first (active :: visited)
      (queue ++ (g.successors active).filter fun next => !(active :: visited).contains next) where
  unambiguous := List.forall_mem_cons.2 ⟨unambiguous, h.unambiguous⟩
  followed s member next after := by
    by_cases seen : next ∈ active :: visited
    · exact .inl seen
    · refine .inr (List.mem_append.2 ?_)
      rcases List.mem_cons.1 member with rfl | member
      · exact .inr (List.mem_filter.2 ⟨after, by simpa using seen⟩)
      · rcases h.followed s member next after with old | waits
        · exact absurd (List.mem_cons_of_mem _ old) seen
        · rcases List.mem_cons.1 waits with rfl | waits
          · exact absurd List.mem_cons_self seen
          · exact .inl waits
  nodup := List.nodup_cons.2 ⟨new, h.nodup⟩
  among s member := by
    simp only [List.cons_append, List.mem_cons, List.mem_append, List.mem_filter] at member
    rcases member with rfl | old | waits | ⟨after, _⟩
    · exact h.among s (by simp)
    · exact h.among s (by simp [old])
    · exact h.among s (by simp [waits])
    · exact unambiguous.mem_places after first

theorem exists_searching_of_findAmbiguity (few : g.transitionCount < 510)
    (searching : g.Searching first visited queue) (none : g.findAmbiguity visited queue = none) :
    ∃ final, g.Searching first final [] ∧ visited ⊆ final ∧ queue ⊆ final := by
  fun_induction findAmbiguity g visited queue with
  | case1 visited => exact ⟨visited, searching, fun _ => id, by simp⟩
  | case2 visited active queue full =>
    have := searching.length_le
    simp only [maxSubsets] at full
    omega
  | case3 visited active queue _ known ih =>
    have known : active ∈ visited := List.contains_iff_mem.1 known
    obtain ⟨final, searched, visitedIn, queueIn⟩ := ih (searching.skip known) none
    exact ⟨final, searched, visitedIn, List.cons_subset.2 ⟨visitedIn known, queueIn⟩⟩
  | case4 => cases none
  | case5 visited active queue _ new clear visited' ih =>
    have new : active ∉ visited := fun known => new (List.contains_iff_mem.2 known)
    obtain ⟨final, searched, visitedIn, queueIn⟩ :=
      ih (searching.visit new (unambiguous_iff.2 clear)) none
    obtain ⟨activeIn, visitedIn⟩ := List.cons_subset.1 visitedIn
    exact ⟨final, searched, visitedIn,
      List.cons_subset.2 ⟨activeIn, fun _ member => queueIn (List.mem_append_left _ member)⟩⟩

/-- A search among sets without overlaps finds nothing, if they hold all that comes after them. -/
theorem findAmbiguity_eq_none {sets : List (List Nat)}
    (unambiguous : ∀ active ∈ sets, g.Unambiguous active)
    (closed : ∀ active ∈ sets, ∀ next ∈ g.successors active, next ∈ sets)
    (queued : ∀ active ∈ queue, active ∈ sets) : g.findAmbiguity visited queue = none := by
  fun_induction findAmbiguity g visited queue with
  | case1 | case2 => rfl
  | case3 visited active queue _ _ ih => exact ih (List.forall_mem_cons.1 queued).2
  | case4 visited active queue _ _ violation found =>
    have clear := unambiguous_iff.1 (unambiguous active (queued active List.mem_cons_self))
    cases found.symm.trans clear
  | case5 visited active queue _ _ _ visited' ih =>
    obtain ⟨member, queued⟩ := List.forall_mem_cons.1 queued
    refine ih (List.forall_mem_append.2 ⟨queued, fun next after => ?_⟩)
    exact closed active member next (List.mem_of_mem_filter after)

end Graph

/-! ## Runs -/

theorem run_mem_of_searching {a : Automaton δ} {first : List Nat} {final : List (List Nat)}
    (searched : a.toGraph.Searching first final []) {names : List QName} {active : List Nat}
    (member : active ∈ final) {state : State}
    (ran : (ContentModel.automaton a).run (.automaton active) names = some state) :
    ∃ last ∈ final, state = .automaton last := by
  induction names generalizing active with
  | nil => exact ⟨active, member, (Option.some.inj ran).symm⟩
  | cons name names ih =>
    obtain ⟨⟨_, _⟩, stepped, ran⟩ := Option.bind_eq_some_iff.1 ran
    obtain ⟨⟨label, next⟩, taken, labelled⟩ := Option.bind_eq_some_iff.1 stepped
    obtain ⟨l, _, equal⟩ := Option.bind_eq_some_iff.1 labelled
    obtain ⟨rfl, rfl⟩ := Prod.mk.inj (Option.some.inj equal)
    have after := (searched.unambiguous active member).mem_successors_of_step taken
    exact ih ((searched.followed active member next after).resolve_right (by simp)) ran

/-- If the search finds no ambiguity, then no name of a child is accepted by two transitions that
leave the states in which an automaton is after any children. -/
theorem attributed_once {a : Automaton δ} (few : a.toGraph.transitionCount < 510)
    (clear : (ContentModel.automaton a).ambiguity? = none) {names : List QName} {state : State}
    (ran : (ContentModel.automaton a).run (ContentModel.automaton a).start names = some state) :
    ∃ active, state = .automaton active ∧ ∀ name,
      ((a.toGraph.outgoing active).filter fun t => a.toGraph.accepts name t.1).length ≤ 1 := by
  obtain ⟨final, searched, _, startIn⟩ :=
    Graph.exists_searching_of_findAmbiguity few (Graph.searching_start _ _) clear
  obtain ⟨active, member, rfl⟩ := run_mem_of_searching searched (startIn List.mem_cons_self) ran
  exact ⟨active, rfl, (searched.unambiguous active member).length_accepted_le⟩

def openContent : Particle Unit :=
  .once (.sequence [
    ⟨0, none, .element ⟨⟨"", "a"⟩, none⟩⟩,
    ⟨0, some 1, .element ⟨⟨"", "b"⟩, none⟩⟩,
    .anyNumber ⟨.other "n", .lax⟩])

def openContentSets : List (List Nat) :=
  [[0, 1, 2, 3, 4, 6, 7, 8, 10, 11, 12, 14], [3, 4, 5, 6, 7, 8, 10, 11, 12, 14],
    [7, 9, 10, 11, 12, 14], [11, 12, 13, 14]]

theorem openContent_evaluates : ((build openContent).toOption.any fun model => match model with
    | .automaton a =>
      decide (a.toGraph.transitionCount < 510) && openContentSets.contains (a.closure [a.start]) &&
        (openContentSets.all fun active =>
          (firstPair (fun s t : Label Unit × Nat => s.1.overlaps t.1)
            (a.toGraph.choices active)).isNone &&
          (a.toGraph.choices active).all fun c => openContentSets.contains
            (a.closure (((a.toGraph.choices active).filter fun d => c.1.overlaps d.1).map (·.2)))) &&
        (model.run model.start [⟨"", "a"⟩, ⟨"", "a"⟩, ⟨"m", "x"⟩]).isSome
    | _ => false) = true := by
  decide +kernel

theorem openContent_attributed_once : ∃ a, build openContent = .ok (.automaton a) ∧
    a.toGraph.transitionCount < 510 ∧ (ContentModel.automaton a).ambiguity? = none ∧
    ∃ active, (ContentModel.automaton a).run (ContentModel.automaton a).start
        [⟨"", "a"⟩, ⟨"", "a"⟩, ⟨"m", "x"⟩] = some (.automaton active) ∧
      ∀ name, ((a.toGraph.outgoing active).filter fun t => a.toGraph.accepts name t.1).length ≤ 1 := by
  have evaluated := openContent_evaluates
  cases built : build openContent with
  | error fault => simp [built, Except.toOption] at evaluated
  | ok model =>
    cases model with
    | empty | all => simp [built, Except.toOption] at evaluated
    | automaton a =>
      simp only [built, Except.toOption, Option.any_some, Bool.and_eq_true, decide_eq_true_eq,
        List.contains_iff_mem, List.all_eq_true, Option.isNone_iff_eq_none,
        Option.isSome_iff_exists, firstPair_eq_none_iff] at evaluated
      obtain ⟨⟨⟨few, first⟩, searched⟩, state, ran⟩ := evaluated
      have clear : (ContentModel.automaton a).ambiguity? = none := by
        refine Graph.findAmbiguity_eq_none (fun active member => (searched active member).1)
          (fun active member next after => ?_) (List.forall_mem_singleton.2 first)
        obtain ⟨c, among, rfl⟩ := Graph.mem_successors_iff.1 after
        exact (searched active member).2 c among
      obtain ⟨active, rfl, once⟩ := attributed_once few clear ran
      exact ⟨a, rfl, few, clear, active, ran, once⟩

end ContentModel

end XmlSchema
