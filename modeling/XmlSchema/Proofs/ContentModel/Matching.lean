import Mathlib.Data.Finset.Card
import Mathlib.Data.Finset.Range
import Mathlib.Data.List.Sort
import XmlSchema.Proofs.ContentModel.Graph
import XmlSchema.Proofs.ContentModel.Layout
import XmlSchema.Proofs.ContentModel.Run

namespace XmlSchema.ContentModel

open Component (QName)

variable {δ : Type}

namespace Graph

def EpsilonClosed (g : Graph δ) (region : Nat → Prop) : Prop :=
  ∀ s t, region s → t ∈ g.epsilonsOf s → region t

theorem EpsilonClosed.stays {g : Graph δ} {region : Nat → Prop} (closed : g.EpsilonClosed region)
    {s t : Nat} (path : Path g.Edge s [] t) (start : region s) : region t := by
  generalize equal : ([] : List QName) = w at path
  induction path with
  | refl s => exact start
  | step first rest ih =>
      obtain ⟨rfl, rfl⟩ := List.append_eq_nil_iff.1 equal.symm
      cases first with
      | epsilon member => exact ih (closed _ _ start member) rfl

theorem path_cons_iff {g : Graph δ} {s t : Nat} {name : QName} {w : List QName} :
    Path g.Edge s (name :: w) t ↔
      ∃ s' r, Path g.Edge s [] s' ∧ g.Edge s' [name] r ∧ Path g.Edge r w t := by
  constructor
  · intro path
    generalize equal : name :: w = v at path
    induction path with
    | refl s => cases equal
    | @step s _ _ _ _ first rest ih =>
        cases first with
        | epsilon member =>
            obtain ⟨s', r, before, edge, after⟩ := ih equal
            exact ⟨s', r, .epsilon (.epsilon member) before, edge, after⟩
        | read member accepted =>
            obtain ⟨rfl, rfl⟩ := List.cons.inj equal
            exact ⟨s, _, .refl s, .read member accepted, rest⟩
  · rintro ⟨s', r, before, edge, after⟩
    exact before.trans (.step edge after)

theorem addNew_cons (seen : Std.TreeSet Nat) (fresh states : List Nat) (s : Nat) :
    addNew (seen, fresh) (s :: states) =
      if s ∈ seen then addNew (seen, fresh) states else addNew (seen.insert s, s :: fresh) states := by
  simp only [addNew, List.foldl_cons, Std.TreeSet.mem_iff_contains]
  split <;> rfl

theorem mem_addNew_fst (seen : Std.TreeSet Nat) (fresh states : List Nat) (x : Nat) :
    x ∈ (addNew (seen, fresh) states).1 ↔ x ∈ seen ∨ x ∈ states := by
  induction states generalizing seen fresh with
  | nil => simp [addNew]
  | cons s states ih =>
      rw [addNew_cons, List.mem_cons]
      split
      · next known =>
        rw [ih]
        by_cases equal : x = s
        · subst equal
          simp [known]
        · simp [equal]
      · rw [ih, Std.TreeSet.mem_insert, Nat.compare_eq_eq]
        tauto

theorem mem_addNew_snd (seen : Std.TreeSet Nat) (fresh states : List Nat) (x : Nat) :
    x ∈ (addNew (seen, fresh) states).2 ↔ x ∈ fresh ∨ x ∈ states ∧ x ∉ seen := by
  induction states generalizing seen fresh with
  | nil => simp [addNew]
  | cons s states ih =>
      rw [addNew_cons]
      by_cases equal : x = s
      · subst equal
        split <;> simp_all
      · split <;> simp_all [Ne.symm equal]

theorem size_addNew (seen : Std.TreeSet Nat) (fresh states : List Nat) :
    (addNew (seen, fresh) states).1.size + fresh.length =
      seen.size + (addNew (seen, fresh) states).2.length := by
  induction states generalizing seen fresh with
  | nil => rfl
  | cons s states ih =>
      rw [addNew_cons]
      split
      · exact ih seen fresh
      · next unknown =>
        have := ih (seen.insert s) (s :: fresh)
        rw [Std.TreeSet.size_insert, if_neg (by simpa using unknown), List.length_cons] at this
        omega

theorem size_le_of_lt {seen : Std.TreeSet Nat} {n : Nat} (lt : ∀ x ∈ seen, x < n) :
    seen.size ≤ n := by
  have distinct : seen.toList.Nodup :=
    Std.TreeSet.distinct_toList.imp fun apart => by simpa using apart
  rw [← Std.TreeSet.length_toList, ← List.toFinset_card_of_nodup distinct]
  calc seen.toList.toFinset.card ≤ (Finset.range n).card :=
        Finset.card_le_card fun x member => by
          simp only [List.mem_toFinset, Std.TreeSet.mem_toList] at member
          exact Finset.mem_range.2 (lt x member)
    _ = n := Finset.card_range n

structure Spreading (g : Graph δ) (seen : Std.TreeSet Nat) (frontier : List Nat) : Prop where
  lt : ∀ x ∈ seen, x < g.size
  known : ∀ x ∈ frontier, x ∈ seen
  followed : ∀ x ∈ seen, x ∉ frontier → ∀ t ∈ g.epsilonsOf x, t ∈ seen

theorem Spreading.mem_iff {g : Graph δ} {seen : Std.TreeSet Nat} (h : g.Spreading seen [])
    (t : Nat) : t ∈ seen ↔ ∃ s ∈ seen, Path g.Edge s [] t := by
  refine ⟨fun member => ⟨t, member, .refl t⟩, fun ⟨s, member, path⟩ => ?_⟩
  have closed : g.EpsilonClosed (· ∈ seen) := fun s t member edge =>
    h.followed s member (by simp) t edge
  exact closed.stays path member

theorem Spreading.round {g : Graph δ} (wellFormed : g.WellFormed) {seen : Std.TreeSet Nat}
    {frontier : List Nat} (h : g.Spreading seen frontier) {next : Std.TreeSet Nat × List Nat}
    (result : addNew (seen, []) (frontier.flatMap g.epsilonsOf) = next) :
    g.Spreading next.1 next.2 ∧ next.1.size = seen.size + next.2.length ∧
      ∀ t, (∃ s ∈ next.1, Path g.Edge s [] t) ↔ ∃ s ∈ seen, Path g.Edge s [] t := by
  have mem_seen := mem_addNew_fst seen [] (frontier.flatMap g.epsilonsOf)
  have mem_fresh := mem_addNew_snd seen [] (frontier.flatMap g.epsilonsOf)
  have size := size_addNew seen [] (frontier.flatMap g.epsilonsOf)
  simp only [result, List.mem_flatMap, List.not_mem_nil, false_or, List.length_nil,
    Nat.add_zero] at mem_seen mem_fresh size
  refine ⟨⟨fun x member => ?_, fun x member => ?_, fun x member old t edge => ?_⟩, size,
    fun t => ⟨?_, ?_⟩⟩
  · rcases (mem_seen x).1 member with member | ⟨s, -, edge⟩
    · exact h.lt x member
    · exact wellFormed.epsilon_lt s x edge
  · exact (mem_seen x).2 (.inr ((mem_fresh x).1 member).1)
  · have member : x ∈ seen := by
      by_contra new
      exact old ((mem_fresh x).2 ⟨((mem_seen x).1 member).resolve_left new, new⟩)
    by_cases front : x ∈ frontier
    · exact (mem_seen t).2 (.inr ⟨x, front, edge⟩)
    · exact (mem_seen t).2 (.inl (h.followed x member front t edge))
  · rintro ⟨s, member, path⟩
    rcases (mem_seen s).1 member with member | ⟨r, front, edge⟩
    · exact ⟨s, member, path⟩
    · exact ⟨r, h.known r front, .epsilon (.epsilon edge) path⟩
  · rintro ⟨s, member, path⟩
    exact ⟨s, (mem_seen s).2 (.inl member), path⟩

/-- The search finds all states that are reached. The frontier is empty in the end, since every round
before adds a state. -/
theorem mem_spread {g : Graph δ} (wellFormed : g.WellFormed) (rounds : Nat)
    {seen : Std.TreeSet Nat} {frontier : List Nat} (h : g.Spreading seen frontier)
    (enough : frontier = [] ∨ g.size < rounds + seen.size) (t : Nat) :
    t ∈ g.spread rounds seen frontier ↔ ∃ s ∈ seen, Path g.Edge s [] t := by
  induction rounds generalizing seen frontier with
  | zero =>
      rcases enough with rfl | enough
      · exact h.mem_iff t
      · -- There are not as many states as must have been seen by now.
        have := size_le_of_lt h.lt
        omega
  | succ rounds ih =>
      cases frontier with
      | nil => exact h.mem_iff t
      | cons first rest =>
          generalize result : addNew (seen, []) ((first :: rest).flatMap g.epsilonsOf) = next
          have spread_eq : g.spread (rounds + 1) seen (first :: rest) =
              g.spread rounds next.1 next.2 := by
            rw [← result, addNew, List.foldl_flatMap]
            rfl
          obtain ⟨spreading, size, same⟩ := h.round wellFormed result
          rw [spread_eq, ← same t]
          refine ih spreading ?_
          cases fresh : next.2 with
          | nil => exact .inl rfl
          | cons x xs =>
              rw [fresh, List.length_cons] at size
              rcases enough with empty | enough
              · cases empty
              · exact .inr (by omega)

theorem mem_closure {g : Graph δ} (h : g.WellFormed) {states : List Nat}
    (lt : ∀ s ∈ states, s < g.size) (t : Nat) :
    t ∈ g.closure states ↔ ∃ s ∈ states, Path g.Edge s [] t := by
  have mem_seen := mem_addNew_fst .empty [] states
  have mem_fresh := mem_addNew_snd .empty [] states
  have closure_eq : g.closure states = (g.spread (g.size + 1) (addNew (.empty, []) states).1
      (addNew (.empty, []) states).2).toList := rfl
  rw [closure_eq, Std.TreeSet.mem_toList]
  generalize addNew (.empty, []) states = next at mem_seen mem_fresh
  have empty (x : Nat) : x ∉ (Std.TreeSet.empty : Std.TreeSet Nat) := Std.TreeSet.not_mem_emptyc
  simp only [empty, List.not_mem_nil, false_or, not_false_eq_true, and_true] at mem_seen mem_fresh
  have spreading : g.Spreading next.1 next.2 :=
    { lt := fun x member => lt x ((mem_seen x).1 member)
      known := fun x member => (mem_seen x).2 ((mem_fresh x).1 member)
      followed := fun x member old => absurd ((mem_fresh x).2 ((mem_seen x).1 member)) old }
  rw [mem_spread h _ spreading (.inr (by omega))]
  simp only [mem_seen]

theorem closure_closed {g : Graph δ} (h : g.WellFormed) {states : List Nat}
    (lt : ∀ s ∈ states, s < g.size) : g.EpsilonClosed (· ∈ g.closure states) := by
  intro s t member edge
  rw [mem_closure h lt] at member ⊢
  obtain ⟨r, member, path⟩ := member
  exact ⟨r, member, path.snoc (.epsilon edge)⟩

theorem pairwise_closure (g : Graph δ) (states : List Nat) : (g.closure states).Pairwise (· < ·) :=
  Std.TreeSet.ordered_toList.imp Nat.compare_eq_lt.1

theorem closure_congr {g : Graph δ} (h : g.WellFormed) {states others : List Nat}
    (lt : ∀ s ∈ states, s < g.size) (same : ∀ s, s ∈ states ↔ s ∈ others) :
    g.closure states = g.closure others := by
  have ltOthers : ∀ s ∈ others, s < g.size := fun s member => lt s ((same s).2 member)
  refine (g.pairwise_closure states).eq_of_mem_iff (g.pairwise_closure others) fun t => ?_
  simp only [mem_closure h lt, mem_closure h ltOthers, same]

theorem prefer_mem (g : Graph δ) (a b : Nat) : g.prefer a b = a ∨ g.prefer a b = b := by
  unfold prefer
  split
  · exact .inr rfl
  · exact .inl rfl
  · exact (min_choice a b)

theorem foldl_prefer_mem (g : Graph δ) (best : Nat) (ts : List (Nat × Nat)) :
    ts.foldl (fun best t => g.prefer best t.1) best ∈ best :: ts.map (·.1) := by
  induction ts generalizing best with
  | nil => simp
  | cons t ts ih =>
      rw [List.foldl_cons, List.map_cons]
      have := ih (g.prefer best t.1)
      rcases List.mem_cons.1 this with equal | member
      · rw [equal]
        rcases g.prefer_mem best t.1 with chosen | chosen <;> simp [chosen]
      · simp [member]

theorem mem_outgoing {g : Graph δ} {active : List Nat} {label t : Nat} :
    (label, t) ∈ g.outgoing active ↔ ∃ s ∈ active, (label, t) ∈ g.transitionsOf s := by
  rw [outgoing, List.mem_flatMap]
  rfl

theorem edge_name_iff {g : Graph δ} {s t : Nat} {name : QName} :
    g.Edge s [name] t ↔ ∃ label, (label, t) ∈ g.transitionsOf s ∧ g.accepts name label = true := by
  constructor
  · rintro (_ | ⟨member, accepted⟩)
    exact ⟨_, member, accepted⟩
  · rintro ⟨label, member, accepted⟩
    exact .read member accepted

theorem step_eq_none_iff {g : Graph δ} {active : List Nat} {name : QName} :
    g.step active name = none ↔ ∀ s ∈ active, ∀ t, ¬ g.Edge s [name] t := by
  have refused : g.step active name = none ↔
      (g.outgoing active).filter (fun t => g.accepts name t.1) = [] := by
    unfold step
    split
    · next none => simp [none]
    · next some => simp [some]
  rw [refused, List.filter_eq_nil_iff]
  simp only [Prod.forall, mem_outgoing, edge_name_iff]
  constructor
  · rintro none s member t ⟨label, transition, accepted⟩
    exact none label t ⟨s, member, transition⟩ accepted
  · rintro none label t ⟨s, member, transition⟩ accepted
    exact none s member t ⟨label, transition, accepted⟩

theorem mem_step {g : Graph δ} (h : g.WellFormed) {active next : List Nat} {name : QName}
    {label : Nat} (stepped : g.step active name = some (label, next)) :
    (∃ l, g.labels[label]? = some l) ∧ g.EpsilonClosed (· ∈ next) ∧
      ∀ t, t ∈ next ↔ ∃ s ∈ active, ∃ r, g.Edge s [name] r ∧ Path g.Edge r [] t := by
  have member_iff {l t : Nat} : (l, t) ∈ (g.outgoing active).filter (fun t => g.accepts name t.1) ↔
      ∃ s ∈ active, (l, t) ∈ g.transitionsOf s ∧ g.accepts name l = true := by
    rw [List.mem_filter, mem_outgoing]
    simp only [and_assoc, ← exists_and_right]
  unfold step at stepped
  split at stepped
  · cases stepped
  · next first rest found =>
    obtain ⟨rfl, rfl⟩ := Prod.mk.inj (Option.some.inj stepped)
    rw [found] at member_iff
    have lt : ∀ t ∈ (first :: rest).map (·.2), t < g.size := by
      intro t member
      obtain ⟨⟨l, t⟩, taken, rfl⟩ := List.mem_map.1 member
      obtain ⟨s, -, transition, -⟩ := member_iff.1 taken
      exact (h.transition_lt _ _ _ transition).2
    refine ⟨?_, closure_closed h lt, fun t => ?_⟩
    -- The preferred label is one of the labels that accept the child.
    · have chosen := foldl_prefer_mem g first.1 rest
      rw [← List.map_cons (f := Prod.fst)] at chosen
      obtain ⟨⟨l, t⟩, member, equal⟩ := List.mem_map.1 chosen
      obtain ⟨s, -, transition, -⟩ := member_iff.1 member
      rw [← equal]
      exact ⟨_, Array.getElem?_eq_getElem (h.transition_lt _ _ _ transition).1⟩
    · rw [mem_closure h lt]
      constructor
      · rintro ⟨r, member, path⟩
        obtain ⟨⟨l, r⟩, taken, rfl⟩ := List.mem_map.1 member
        obtain ⟨s, active, transition, accepted⟩ := member_iff.1 taken
        exact ⟨s, active, r, .read transition accepted, path⟩
      · rintro ⟨s, active, r, edge, path⟩
        obtain ⟨l, transition, accepted⟩ := edge_name_iff.1 edge
        exact ⟨r, List.mem_map.2 ⟨(l, r), member_iff.2 ⟨s, active, transition, accepted⟩, rfl⟩, path⟩

theorem pairwise_step {g : Graph δ} {active next : List Nat} {name : QName} {label : Nat}
    (stepped : g.step active name = some (label, next)) : next.Pairwise (· < ·) := by
  unfold step at stepped
  split at stepped
  · cases stepped
  · obtain ⟨-, rfl⟩ := Prod.mk.inj (Option.some.inj stepped)
    exact g.pairwise_closure _

end Graph

theorem isAccepting_automaton_iff {a : Automaton δ} {active : List Nat}
    (increasing : active.Pairwise (· < ·)) :
    (ContentModel.automaton a).isAccepting (.automaton active) = true ↔ a.accept ∈ active :=
  (Bisection.contains_iff increasing a.accept).trans List.mem_toArray

theorem run_automaton_iff {a : Automaton δ} (h : a.toGraph.WellFormed) {active : List Nat}
    (increasing : active.Pairwise (· < ·)) (closed : a.toGraph.EpsilonClosed (· ∈ active))
    (names : List QName) :
    (∃ state, (ContentModel.automaton a).run (.automaton active) names = some state ∧
        (ContentModel.automaton a).isAccepting state = true) ↔
      ∃ s ∈ active, Path a.toGraph.Edge s names a.accept := by
  induction names generalizing active with
  | nil =>
      simp only [run, Option.some.injEq, exists_eq_left', isAccepting_automaton_iff increasing]
      constructor
      · intro member
        exact ⟨_, member, .refl _⟩
      · rintro ⟨s, member, path⟩
        exact closed.stays path member
  | cons name names ih =>
      simp only [run]
      cases stepped : a.toGraph.step active name with
      | none =>
          have refused := Graph.step_eq_none_iff.1 stepped
          simp only [step, stepped]
          constructor
          · rintro ⟨state, taken, -⟩
            cases taken
          · rintro ⟨s, member, path⟩
            obtain ⟨s', r, before, edge, -⟩ := Graph.path_cons_iff.1 path
            exact absurd edge (refused s' (closed.stays before member) r)
      | some result =>
          obtain ⟨label, next⟩ := result
          obtain ⟨⟨l, labelled⟩, next_closed, mem_next⟩ := Graph.mem_step h stepped
          have taken : (ContentModel.automaton a).step (.automaton active) name =
              some (l, .automaton next) := by
            simp [step, stepped, labelled]
          simp only [taken, Option.bind_eq_bind, Option.bind_some,
            ih (Graph.pairwise_step stepped) next_closed]
          constructor
          · rintro ⟨t, member, path⟩
            obtain ⟨s, member, r, edge, before⟩ := (mem_next t).1 member
            exact ⟨s, member, .step edge (before.trans path)⟩
          · rintro ⟨s, member, path⟩
            -- The empty moves in front of the child stay in the closed set.
            obtain ⟨s', r, before, edge, after⟩ := Graph.path_cons_iff.1 path
            exact ⟨r, (mem_next r).2 ⟨s', closed.stays before member, r, edge, .refl r⟩, after⟩

theorem accepts_automaton_iff {a : Automaton δ} (h : a.toGraph.WellFormed)
    (lt : a.start < a.toGraph.size) (names : List QName) :
    (ContentModel.automaton a).accepts names = true ↔
      Path a.toGraph.Edge a.start names a.accept := by
  have lt' : ∀ s ∈ [a.start], s < a.toGraph.size := by simpa using lt
  rw [accepts_iff, start, run_automaton_iff h (a.pairwise_closure _) (Graph.closure_closed h lt')]
  simp only [Graph.mem_closure h lt', List.mem_singleton, exists_eq_left]
  exact ⟨fun ⟨s, before, path⟩ => before.trans path, fun path => ⟨_, .refl _, path⟩⟩

theorem ofParticle_ok {p : Particle δ} {a : Automaton δ} (built : Automaton.ofParticle p = .ok a) :
    Fragment ⟨#[], #[], #[]⟩ a.toGraph a.start a.accept p.language :=
  Layout.particle_lays p Graph.wellFormed_empty (ofParticle_eq_ok built)

theorem accepts_ofParticle_iff {p : Particle δ} {a : Automaton δ}
    (built : Automaton.ofParticle p = .ok a) (names : List QName) :
    (ContentModel.automaton a).accepts names = true ↔ names ∈ p.language := by
  have fragment := ofParticle_ok built
  rw [accepts_automaton_iff fragment.wellFormed fragment.entry_lt, fragment.path_iff]

theorem build_ok {p : Particle δ} {model : ContentModel δ} (noAll : p.containsAll = false)
    (built : build p = .ok model) : ∃ a, Automaton.ofParticle p = .ok a ∧ model = .automaton a := by
  rcases build_cases built with ⟨children, _, group, -⟩ | automaton
  · obtain ⟨_, _, _⟩ := p
    obtain rfl : _ = Term.all children := group
    cases noAll
  · exact automaton

/-- A content model takes the sequences of child names that its particle means, and no others. -/
theorem accepts_iff_mem_language {p : Particle δ} {model : ContentModel δ}
    (noAll : p.containsAll = false) (built : build p = .ok model) (names : List QName) :
    model.accepts names = true ↔ names ∈ p.language := by
  obtain ⟨a, laid, rfl⟩ := build_ok noAll built
  exact accepts_ofParticle_iff laid names

def pairsThenRest : Particle Unit :=
  .once (.sequence [
    ⟨2, some 3, .element ⟨⟨"", "a"⟩, none⟩⟩,
    ⟨0, none, .choice [.once (.element ⟨⟨"", "b"⟩, none⟩),
      .once (.wildcard ⟨.among ["n"], .lax⟩)]⟩])

theorem pairsThenRest_language : ∃ model, build pairsThenRest = .ok model ∧
    pairsThenRest.containsAll = false ∧
    [⟨"", "a"⟩, ⟨"", "a"⟩, ⟨"n", "x"⟩, ⟨"", "b"⟩] ∈ pairsThenRest.language ∧
    [⟨"", "a"⟩, ⟨"", "b"⟩] ∉ pairsThenRest.language := by
  have runs : ((build pairsThenRest).toOption.any fun model =>
      model.accepts [⟨"", "a"⟩, ⟨"", "a"⟩, ⟨"n", "x"⟩, ⟨"", "b"⟩] &&
        !model.accepts [⟨"", "a"⟩, ⟨"", "b"⟩]) = true := by decide +kernel
  cases built : build pairsThenRest with
  | error fault => simp [built, Except.toOption] at runs
  | ok model =>
      simp only [built, Except.toOption, Option.any_some, Bool.and_eq_true,
        Bool.not_eq_true'] at runs
      refine ⟨model, rfl, rfl, (accepts_iff_mem_language rfl built _).1 runs.1, fun member => ?_⟩
      rw [(accepts_iff_mem_language rfl built _).2 member] at runs
      cases runs.2

end XmlSchema.ContentModel
